/-!
# Declarations

What an extractor reads from a file: parameters, routines, type declarations and imports.
-/

namespace SourceSurvey

/-- A parameter or an attribute. -/
structure Slot where
  name : String
  type : String := "Any"
  default : Option String := none
deriving Repr, DecidableEq, Inhabited

/-- A function or a method. -/
structure Routine where
  name : String
  params : List Slot := []
  returnType : String := "Any"
  decorators : List String := []
  line : Nat := 0
  isAsync : Bool := false
  isPrivate : Bool := false
  /-- Constructs in the body that branch. -/
  complexity : Nat := 0
deriving Repr, DecidableEq, Inhabited

/-- A class, interface or trait, a section of a page or a rule of a stylesheet. -/
structure TypeDeclaration where
  name : String
  bases : List String := []
  methods : List Routine := []
  attributes : List Slot := []
  decorators : List String := []
  line : Nat := 0
deriving Repr, DecidableEq, Inhabited

/-- An import statement, from its first to its last line. -/
structure ImportStatement where
  module : String
  names : List String
  isFrom : Bool
  line : Nat
  endLine : Nat
deriving Repr, DecidableEq, Inhabited

namespace ImportStatement

/-- An import whose last line is not before its first. -/
def spanning (module : String) (names : List String) (isFrom : Bool) (first last : Nat) :
    ImportStatement :=
  ⟨module, names, isFrom, first, max first last⟩

end ImportStatement

/-- Constructs that a file declares and the places that it guards against failure. -/
structure Extraction where
  imports : List ImportStatement := []
  types : List TypeDeclaration := []
  routines : List Routine := []
  globals : List Slot := []
  errorNames : List String := []
  riskPoints : List Nat := []
deriving Repr, DecidableEq, Inhabited

/-- Names under which a type is constructed. -/
def constructorNames : List String :=
  ["__init__", "constructor", "__construct"]

end SourceSurvey
