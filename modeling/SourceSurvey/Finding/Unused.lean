import SourceSurvey.Comment.Strip
import SourceSurvey.Mention
import SourceSurvey.Pattern.Basic
import SourceSurvey.Summary.Declaration

/-!
# Unused declarations

Imports, routines and constants that nothing else in their file mentions. A mention is a whole
word; what stands in comments, literals or import statements does not count for imports.
-/

namespace SourceSurvey

/-- What kind of declaration is unused. -/
inductive UnusedKind where
  | imported | routine | constant
deriving Repr, DecidableEq

/-- The word for a kind. -/
def UnusedKind.name : UnusedKind → String
  | .imported => "import"
  | .routine => "callable"
  | .constant => "variable"

/-- A declaration that nothing in its file mentions. -/
structure UnusedName where
  name : String
  kind : UnusedKind
  line : Nat
deriving Repr, DecidableEq

namespace Unused

/-- The lines whose number is not excluded, joined. -/
def textWithout (isExcluded : Nat → Bool) (lines : List Line) : List Char :=
  Text.joinLines (((lines.zipIdx 1).filter fun (_, n) => !isExcluded n).map (·.1))

/-! ## Imports -/

/-- Names that are mentioned only in annotations. -/
def annotationWords : List String :=
  ["Dict", "List", "Set", "Tuple", "Optional", "Union", "Any", "Type", "Callable",
    "Iterator", "Generator", "Sequence", "Mapping", "Iterable", "ClassVar", "Final",
    "Literal", "TypeVar", "Generic", "Protocol", "Awaitable", "Coroutine",
    "AsyncIterator", "AsyncGenerator", "NamedTuple", "TypedDict", "Annotated",
    "TypeAlias", "Self",
    "FC", "ReactNode", "PropsWithChildren", "ComponentType", "CSSProperties",
    "MouseEvent", "ChangeEvent", "FormEvent"]

/-- A module that serves annotations. -/
def isTypingModule (module : List Char) : Bool :=
  let isWhole := fun (name : String) =>
    module == name.toList || module == name.toList ++ ['\n']
  "typing".toList.isPrefixOf module || isWhole "types" ||
    "collections.abc".toList.isPrefixOf module || isWhole "__future__"

/-- The line lies inside one of the import statements. -/
def isImportLine (imports : List ImportStatement) (number : Nat) : Bool :=
  imports.any fun i => i.line ≤ number && number ≤ i.endLine

/-- A bound name that is expected to be mentioned. -/
def isChecked (name : String) : Bool :=
  name != "*" && 1 < name.length && !annotationWords.contains name

/-- The imported names that the stripped lines outside import statements do not mention. -/
def imports (code : List Line) (declared : List ImportStatement) : List UnusedName :=
  let text := textWithout (isImportLine declared) code
  (declared.filter fun i => !isTypingModule i.module.toList).flatMap fun i =>
    (i.names.filter fun name => isChecked name && !hasMention name.toList text).map fun name =>
      ⟨name, .imported, i.line⟩

/-! ## Routines -/

/-- A routine that is expected to be mentioned. -/
def isExpected (c : Routine) : Bool :=
  !constructorNames.contains c.name && !"__".toList.isPrefixOf c.name.toList && c.line != 0

/-- A text uses a name when it calls it, or mentions it apart from declarations. -/
def isUsedIn (name text : List Char) : Bool :=
  hasCall name text || hasMention name (dropDeclarations text)

/-- The routines that no line but their own uses. -/
def routines (lines : List Line) (declared : List Routine) : List UnusedName :=
  (declared.filter fun c =>
    isExpected c && !isUsedIn c.name.toList (textWithout (· == c.line) lines)).map fun c =>
      ⟨c.name, .routine, c.line⟩

/-! ## Constants -/

/-- A call of `define`. -/
def defineCall : Pattern Unit := do
  Pattern.wordBoundary
  Pattern.lit "define"
  Pattern.blanks
  Pattern.lit "("

/-- The line declares a constant or mentions it; a call of `define` keeps the name in a literal. -/
def declares (name : List Char) (line code : Line) : Bool :=
  hasMention name code || (defineCall.occursIn code && hasMention name line)

/-- The number of the first line that declares or mentions a constant. -/
def declaringLine? (name : List Char) (lines code : List Line) : Option Nat :=
  (((lines.zip code).zipIdx 1).find? fun ((line, stripped), _) =>
    declares name line stripped).map (·.2)

/-- The constants that no stripped line but the declaring one mentions. -/
def globals (lines code : List Line) (declared : List Slot) : List UnusedName :=
  declared.filterMap fun slot =>
    let name := slot.name.toList
    match declaringLine? name lines code with
    | none => none
    | some n =>
      if hasMention name (textWithout (· == n) code) then none
      else some ⟨slot.name, .constant, n⟩

/-- Imports, routines and constants of a file that nothing else in it mentions. -/
def ofLines (lines : List Line) (found : Extraction) (style : CommentRules) : List UnusedName :=
  let code := style.strip lines
  imports code found.imports ++
    routines lines (found.routines ++ found.types.flatMap (·.methods)) ++
    globals lines code found.globals

end Unused

end SourceSurvey
