import SourceSurvey.MetaBlock
import SourceSurvey.Extract.Statement
import SourceSurvey.Summary.Declaration

/-!
# Descriptions

Plain sentences about a file and its types, and the mismatches between a meta block and the
imports.
-/

namespace SourceSurvey.Description

open Extract (distinct)

/-- Texts joined with a comma and a blank. -/
def commas (texts : List String) : String :=
  ", ".intercalate texts

/-- A count with its noun. -/
def counted (count : Nat) (noun suffixed : String) : String :=
  toString count ++ " " ++ (if count = 1 then noun else suffixed)

/-! ## Methods -/

/-- Words that begin a method's name, with the phrase that describes it. -/
def knownVerbs : List (String × String) := [
  ("get", "gets"), ("find", "finds"), ("search", "searches"),
  ("create", "creates"), ("add", "adds"), ("insert", "inserts"),
  ("update", "updates"), ("edit", "edits"), ("modify", "modifies"),
  ("delete", "deletes"), ("remove", "removes"), ("destroy", "destroys"),
  ("validate", "validates"), ("check", "checks"), ("verify", "verifies"),
  ("send", "sends"), ("emit", "emits"), ("notify", "notifies"),
  ("save", "saves"), ("store", "stores"), ("persist", "persists"),
  ("load", "loads"), ("fetch", "fetches"), ("retrieve", "retrieves"),
  ("process", "processes"), ("handle", "handles"), ("execute", "executes"),
  ("convert", "converts"), ("transform", "transforms"), ("parse", "parses"),
  ("init", "initializes"), ("setup", "sets up"), ("configure", "configures"),
  ("login", "authenticates"), ("logout", "logs out"), ("auth", "authenticates"),
  ("register", "registers"), ("signup", "signs up"),
  ("list", "lists"), ("count", "counts"), ("filter", "filters"),
  ("sort", "sorts"), ("group", "groups"), ("merge", "merges"),
  ("export", "exports"), ("import", "imports"), ("download", "downloads"),
  ("upload", "uploads"), ("sync", "syncs"), ("refresh", "refreshes"),
  ("start", "starts"), ("stop", "stops"), ("run", "runs"),
  ("open", "opens"), ("close", "closes"), ("connect", "connects"),
  ("disconnect", "disconnects"), ("reset", "resets"), ("clear", "clears"),
  ("set", "sets"), ("enable", "enables"), ("disable", "disables"),
  ("show", "shows"), ("hide", "hides"), ("render", "renders"),
  ("build", "builds"), ("generate", "generates"), ("compute", "computes"),
  ("calculate", "calculates"), ("compare", "compares"), ("format", "formats"),
  ("log", "logs"), ("track", "tracks"), ("monitor", "monitors"),
  ("subscribe", "subscribes"), ("unsubscribe", "unsubscribes"), ("publish", "publishes"),
  ("map", "maps"), ("reduce", "reduces"), ("collect", "collects"),
  ("assign", "assigns"), ("allocate", "allocates"), ("distribute", "distributes"),
  ("lock", "locks"), ("unlock", "unlocks"), ("encrypt", "encrypts"),
  ("decrypt", "decrypts"), ("hash", "hashes"), ("sign", "signs"),
  ("schedule", "schedules"), ("queue", "queues"), ("retry", "retries"),
  ("rollback", "rolls back"), ("commit", "commits"), ("migrate", "migrates"),
  ("backup", "backs up"), ("restore", "restores"), ("archive", "archives"),
  ("test", "tests"), ("mock", "mocks"), ("stub", "stubs"),
  ("assert", "asserts"), ("expect", "expects"), ("match", "matches"),
  ("is", "checks whether it is"), ("has", "checks whether it has"),
  ("can", "checks whether it can")]

/-- Return types that say nothing about the result. -/
def uninformativeTypes : List String :=
  ["Any", "None", "any", "void", "mixed", "undefined", "unknown"]

/-- A text cut wherever an ASCII capital follows an ASCII small letter or digit. -/
def splitCamel : List Char → List (List Char)
  | [] => [[]]
  | [c] => [[c]]
  | c :: d :: cs =>
    let isSmall := ('a' ≤ c && c ≤ 'z') || ('0' ≤ c && c ≤ '9')
    let isCapital := 'A' ≤ d && d ≤ 'Z'
    match splitCamel (d :: cs) with
    | [] => [[c]]
    | word :: words =>
      if isSmall && isCapital then [c] :: word :: words else (c :: word) :: words

/-- The words of a name in lower case, whichever convention joins them. -/
def nameWords (name : List Char) : List (List Char) :=
  let trimmed := Text.trimWhile (fun c => c == '_' || c == '#' || c == '$') name
  (((Text.splitAt '_' trimmed).flatMap splitCamel).filter (!·.isEmpty)).map Text.lower

/-- The phrase for a method with its result; empty when the name begins with no known verb or has
one word only. -/
def method (name returnType : String) : String :=
  match (nameWords name.toList).map String.ofList with
  | verb :: next :: others =>
    match knownVerbs.lookup verb with
    | none => ""
    | some phrase =>
      let result :=
        if returnType.isEmpty || uninformativeTypes.contains returnType then ""
        else " (returns " ++ returnType ++ ")"
      phrase ++ " " ++ " ".intercalate (next :: others) ++ result
  | _ => ""

/-- The phrases of some methods, without empty ones. -/
def actions (methods : List Routine) : List String :=
  (methods.map fun m => method m.name m.returnType).filter (!·.isEmpty)

/-- The methods that others may call. -/
def visibleMethods (t : TypeDeclaration) : List Routine :=
  t.methods.filter fun m => !m.isPrivate && !constructorNames.contains m.name

/-- A base that makes a type an error. -/
def isErrorBase (base : String) : Bool :=
  Text.contains base.toList "Error".toList || Text.contains base.toList "Exception".toList

/-! ## Files of code -/

/-- The imported modules that are not relative, each once. -/
def outsideModules (imports : List ImportStatement) : List String :=
  distinct ((imports.map (·.module)).filter fun m => m.toList.head? != some '.')

/-- The extension at the end of a file name. -/
def extension : Pattern Unit := do
  Pattern.lit "."
  let _ ← Pattern.run1 Text.isWord
  Pattern.atEnd

/-- A file name without its extension. -/
def stem (fileName : String) : String :=
  .ofList (extension.replaceAll [] fileName.toList)

/-- What a service does: the type named as one, or else the first. -/
def serviceSentence (name : String) (types : List TypeDeclaration) : String :=
  let main := (types.find? fun t =>
    Text.contains (Text.lower t.name.toList) "service".toList).or types.head?
  match main with
  | none => name ++ " is a service."
  | some t =>
    let done := actions (visibleMethods t)
    name ++ " is a service that " ++
      (if done.isEmpty then "manages business operations" else commas done) ++ "."

/-- The data model that a file defines: its first type that is no error. -/
def modelSentence (name : String) (types : List TypeDeclaration) : List String :=
  match types.find? fun t => !t.bases.any isErrorBase with
  | none => []
  | some t =>
    let attributes := commas (t.attributes.map (·.name))
    [name ++ " defines the data model " ++ t.name ++
      (if attributes.isEmpty then "" else " with attributes: " ++ attributes) ++ "."]

/-- What a file is, by its declared kind. -/
def kindSentences (name kind : String) (types : List TypeDeclaration) (routines : List Routine) :
    List String :=
  if kind == "service" then [serviceSentence name types]
  else if kind == "model" then modelSentence name types
  else if kind == "controller" then
    [name ++ " handles the routes and HTTP requests of its resource."]
  else if kind == "util" then
    [name ++ " provides utility functions: " ++ commas (routines.map (·.name)) ++ "."]
  else
    [name ++ " is a module with " ++ counted types.length "class" "classes" ++ " and " ++
      counted routines.length "function" "functions" ++ "."]

/-- What a file depends on. -/
def dependencySentence (imports : List ImportStatement) : List String :=
  match outsideModules imports with
  | [] => []
  | modules =>
    ["Depends on: " ++ commas (modules.take 5) ++ (if 5 < modules.length then "..." else "") ++ "."]

/-- How many asynchronous operations a file uses. -/
def asyncSentence (types : List TypeDeclaration) (routines : List Routine) : List String :=
  let count := (routines ++ types.flatMap (·.methods)).countP (·.isAsync)
  if count = 0 then []
  else ["Uses asynchronous operations (" ++ counted count "async method" "async methods" ++ ")."]

/-- A paragraph about a file of code. The annotation's own description goes before all else. -/
def file (block : Option MetaBlock) (types : List TypeDeclaration)
    (routines : List Routine) (imports : List ImportStatement) (fileName : String) : String :=
  match (block.bind (·.desc)).filter (!·.isEmpty) with
  | some desc => desc
  | none =>
    let name := ((block.bind (·.name)).filter (!·.isEmpty)).getD (stem fileName)
    let kind := ((block.bind (·.type)).filter (!·.isEmpty)).getD "module"
    " ".intercalate (kindSentences name kind types routines ++ dependencySentence imports ++
      asyncSentence types routines)

/-! ## Types -/

/-- What a type is or does. -/
def typeSentence (t : TypeDeclaration) : String :=
  let methods := visibleMethods t
  if methods.isEmpty then
    if t.attributes.isEmpty then t.name ++ " is a base class."
    else t.name ++ " is a data model with " ++
      counted t.attributes.length "attribute" "attributes" ++ ": " ++
      commas (t.attributes.map (·.name)) ++ "."
  else
    let done := actions methods
    t.name ++ " " ++ (if done.isEmpty then
      "has " ++ counted methods.length "public method" "public methods" else commas done) ++ "."

/-- A description of one type. -/
def type (t : TypeDeclaration) : String :=
  if t.bases.any isErrorBase then
    t.name ++ " is a custom exception extending " ++ commas t.bases ++ "."
  else
    let taken := match t.methods.find? fun m => constructorNames.contains m.name with
      | some c =>
        if c.params.isEmpty then []
        else ["Takes " ++ commas (c.params.map (·.name)) ++ " in its constructor."]
      | none => []
    let extended := if t.bases.isEmpty then [] else ["Extends " ++ commas t.bases ++ "."]
    " ".intercalate (typeSentence t :: taken ++ extended)

/-- Descriptions by name; of types with one name the last is described. -/
def byName (describe : TypeDeclaration → String) (types : List TypeDeclaration) :
    List (String × String) :=
  types.foldl (fun acc t => setKey acc t.name (describe t)) []

/-- A description of every type. -/
def types (declared : List TypeDeclaration) : List (String × String) :=
  byName type declared

/-! ## Pages and stylesheets -/

/-- A sentence about a page. -/
def page (block : Option MetaBlock) (sections : List TypeDeclaration)
    (imports : List ImportStatement) (fileName : String) : String :=
  match (block.bind (·.desc)).filter (!·.isEmpty) with
  | some desc => desc
  | none =>
    let scripts := imports.countP fun i => i.names.contains "script"
    let styles := imports.countP fun i => i.names.contains "stylesheet" || i.names.contains "css"
    fileName ++ " has " ++ counted sections.length "main section" "main sections" ++ ", " ++
      counted scripts "script" "scripts" ++ " and " ++
      counted styles "stylesheet" "stylesheets" ++ "."

/-- A description of one section. -/
def pageSection (s : TypeDeclaration) : String :=
  "Section <" ++ s.name ++ "> with " ++ counted s.attributes.length "attribute" "attributes" ++ "."

/-- A description of every section. -/
def sections (declared : List TypeDeclaration) : List (String × String) :=
  byName pageSection declared

/-- A sentence about a stylesheet. -/
def stylesheet (block : Option MetaBlock) (rules : List TypeDeclaration)
    (imports : List ImportStatement) : String :=
  match (block.bind (·.desc)).filter (!·.isEmpty) with
  | some desc => desc
  | none =>
    "Stylesheet with " ++ counted rules.length "selector" "selectors" ++ "." ++
      (if imports.isEmpty then ""
      else " Imports: " ++ commas (imports.map (·.module)) ++ ".")

/-! ## Cross-checks -/

/-- Two names are related when one contains the other. -/
def overlaps (a b : String) : Bool :=
  Text.contains b.toList a.toList || Text.contains a.toList b.toList

/-- Declared dependencies without a related import, and on demand imports without a related declared
dependency. -/
def warnings (block : Option MetaBlock) (imports : List ImportStatement)
    (checksUndeclared : Bool) : List String :=
  match block.bind (·.deps) with
  | none => []
  | some [] => []
  | some deps =>
    let modules := imports.map (·.module)
    let missing := (deps.filter fun d => !modules.any (overlaps d)).map fun d =>
      "Annotation declares dependency \"" ++ d ++ "\" not found in imports"
    let undeclared := ((distinct modules).filter fun m => !deps.any (overlaps · m)).map fun m =>
      "Import \"" ++ m ++ "\" is not declared in annotation deps"
    missing ++ (if checksUndeclared then undeclared else [])

end SourceSurvey.Description
