import SourceSurvey.Text.Search

/-!
# Command-line arguments

What the arguments of a command say. The name of an option may be cut short as long as only one
option begins that way, a value may be attached to a name, short options without a value may share a
dash, and after a double dash every argument is a word.
-/

namespace SourceSurvey.CommandLine

/-- Something that an option switches on or sets. -/
inductive Switch where
  | help | language | json | verify | config | logLevel | deps | workspace
deriving Repr, DecidableEq

/-- The switch is set to a value. -/
def Switch.takesValue : Switch → Bool
  | .language | .config | .logLevel | .workspace => true
  | .help | .json | .verify | .deps => false

/-- The arguments that a command understands. -/
structure Grammar where
  /-- The spellings of options. -/
  spellings : List (String × Switch)
  /-- One word is taken as a path. -/
  takesPath : Bool

/-- Why a command is not carried out. -/
inductive Ending where
  /-- Help is asked for. -/
  | help
  /-- The arguments make no sense. -/
  | misuse
deriving Repr, DecidableEq

/-- A text attached to the name of an option. -/
structure Attached where
  /-- An equals sign is between the name and the text. -/
  afterSign : Bool
  text : List Char
deriving Repr, DecidableEq

/-- An argument by its form. -/
inductive Argument where
  | word (text : String)
  /-- The double dash that ends the options. -/
  | mark
  | option (switch : Switch) (isShort : Bool) (attached : Option Attached)
  /-- An option that the command does not understand. -/
  | unknown
deriving Repr, DecidableEq

/-! ## The form of an argument -/

/-- A number with a minus sign. One line feed may follow it. -/
def isNegativeNumber (arg : List Char) : Bool :=
  match arg with
  | '-' :: rest =>
    let body := if rest.getLast? == some '\n' then rest.dropLast else rest
    let decimals := (body.dropWhile Text.isDigit).drop 1
    (!body.isEmpty && body.all Text.isDigit) ||
      ((body.dropWhile Text.isDigit).head? == some '.' && !decimals.isEmpty &&
        decimals.all Text.isDigit)
  | _ => false

namespace Grammar

/-- The switch with a spelling. -/
def switch? (g : Grammar) (spelling : List Char) : Option Switch :=
  g.spellings.lookup (.ofList spelling)

/-- The options of long names that begin with a text. What follows an equals sign in it is attached.
-/
def completions (g : Grammar) (arg : List Char) : List Argument :=
  let name := Text.beforeFirst '=' arg
  let attached := if arg.contains '=' then some ⟨true, arg.drop (name.length + 1)⟩ else none
  (g.spellings.filter fun (s, _) => Text.startsWith s.toList name).map fun (_, s) =>
    .option s false attached

/-- The option of a short name that a text begins with; the rest of it is attached. -/
def shortened (g : Grammar) (arg : List Char) : List Argument :=
  ((g.switch? (arg.take 2)).map fun s => .option s true (some ⟨false, arg.drop 2⟩)).toList

/-- An argument that begins with a dash and has no spelling of an option at its start. -/
def incomplete (g : Grammar) (arg : List Char) : Except Ending Argument :=
  let candidates := if Text.startsWith arg ['-', '-'] then g.completions arg else g.shortened arg
  match candidates with
  | [] =>
    .ok (if isNegativeNumber arg || arg.contains ' ' then .word (.ofList arg) else .unknown)
  | [a] => .ok a
  | _ => .error .misuse

/-- The form of an argument before a double dash. -/
def form (g : Grammar) (arg : List Char) : Except Ending Argument :=
  if arg == ['-', '-'] then .ok .mark
  else if !Text.startsWith arg ['-'] || arg.length == 1 then .ok (.word (.ofList arg))
  else match g.switch? arg with
    | some s => .ok (.option s (arg.length == 2) none)
    | none =>
      let name := Text.beforeFirst '=' arg
      match if arg.contains '=' then g.switch? name else none with
      | some s => .ok (.option s (name.length == 2) (some ⟨true, arg.drop (name.length + 1)⟩))
      | none => g.incomplete arg

/-- The forms of arguments. -/
def forms (g : Grammar) : List String → Except Ending (List Argument)
  | [] => .ok []
  | arg :: args => do
    match ← g.form arg.toList with
    | .mark => return .mark :: args.map .word
    | a => return a :: (← g.forms args)

end Grammar

/-! ## What arguments say -/

/-- What the arguments of a command choose. -/
structure Choices where
  path : Option String := none
  language : Option String := none
  json : Bool := false
  verify : Bool := false
  config : Option String := none
  logLevel : Option String := none
  deps : Bool := false
  workspace : Option String := none
  /-- There is an argument that the command has no use for. -/
  hasExtra : Bool := false
deriving Repr, DecidableEq

namespace Choices

/-- The choices with a switch set to a value, or switched on. -/
def set (c : Choices) (s : Switch) (value : String) : Except Ending Choices :=
  match s with
  | .help => .error .help
  | .language => .ok { c with language := some value }
  | .json => .ok { c with json := true }
  | .verify => .ok { c with verify := true }
  | .config => .ok { c with config := some value }
  | .logLevel => .ok { c with logLevel := some value }
  | .deps => .ok { c with deps := true }
  | .workspace => .ok { c with workspace := some value }

end Choices

/-- The switches that one argument names. -/
structure Cluster where
  /-- The switches that need nothing more, with their values. -/
  complete : List (Switch × String) := []
  /-- The last switch, if its value is the next argument. -/
  awaiting : Option Switch := none
  /-- A letter is the name of no option. -/
  hasExtra : Bool := false
deriving Repr, DecidableEq

/-- The text attached to an option of a cluster by the letters after it. -/
def attachedBy : List Char → Option Attached
  | [] => none
  | '=' :: rest => some ⟨true, rest⟩
  | rest => some ⟨false, rest⟩

/-- The switches that an option with the text attached to it names. Only the letters after a short
option without a value are options themselves. The bound is on their number. -/
def cluster (g : Grammar) : Nat → Switch → Bool → Option Attached → Except Ending Cluster
  | 0, _, _, _ => .error .misuse
  | n + 1, s, isShort, attached =>
    match s.takesValue, attached with
    | true, some a => .ok { complete := [(s, .ofList a.text)] }
    | true, none => .ok { awaiting := some s }
    | false, none => .ok { complete := [(s, "")] }
    | false, some a =>
      match a.text with
      | [] => .error .misuse
      | letter :: rest =>
        if !isShort || a.afterSign || letter == '-' then .error .misuse
        else match g.switch? ['-', letter] with
          | none => .ok { complete := [(s, "")], hasExtra := true }
          | some next => do
            let others ← cluster g n next true (attachedBy rest)
            return { others with complete := (s, "") :: others.complete }

/-- The choices with the switches of a cluster. -/
def Choices.apply (c : Choices) (switches : Cluster) (value : String) : Except Ending Choices := do
  let all := switches.complete ++ switches.awaiting.toList.map fun s => (s, value)
  let chosen ← all.foldlM (fun c (s, v) => c.set s v) c
  return { chosen with hasExtra := chosen.hasExtra || switches.hasExtra }

namespace Grammar

/-- The switches of an option. -/
def switches (g : Grammar) (s : Switch) (isShort : Bool) (attached : Option Attached) :
    Except Ending Cluster :=
  cluster g ((attached.map (·.text.length)).getD 0 + 1) s isShort attached

/-- A word is taken as the path. -/
def wantsPath (g : Grammar) (c : Choices) : Bool :=
  g.takesPath && c.path.isNone

/-- What arguments choose in addition to earlier choices. A double dash beside the word that is
taken as the path belongs to it. -/
def read (g : Grammar) : Choices → List Argument → Except Ending Choices
  | c, [] => .ok c
  | c, .mark :: .word w :: rest =>
    if g.wantsPath c then g.read { c with path := some w } rest
    else g.read { c with hasExtra := true } rest
  | c, .word w :: .mark :: rest =>
    if g.wantsPath c then g.read { c with path := some w } rest
    else g.read { c with hasExtra := true } rest
  | c, .word w :: rest =>
    if g.wantsPath c then g.read { c with path := some w } rest
    else g.read { c with hasExtra := true } rest
  | c, .mark :: rest => g.read { c with hasExtra := true } rest
  | c, .unknown :: rest => g.read { c with hasExtra := true } rest
  | c, .option s isShort attached :: .word value :: rest => do
    let found ← g.switches s isShort attached
    let chosen ← c.apply found value
    if found.awaiting.isSome then g.read chosen rest else g.read chosen (.word value :: rest)
  | c, .option s isShort attached :: rest => do
    let found ← g.switches s isShort attached
    if found.awaiting.isSome then .error .misuse else g.read (← c.apply found "") rest

/-- What arguments choose. Arguments without a use are refused, and so is a missing path. -/
def choices (g : Grammar) (args : List String) : Except Ending Choices := do
  let c ← g.read {} (← g.forms args)
  if c.hasExtra || g.wantsPath c then .error .misuse else return c

end Grammar

/-! ## Tasks -/

/-- A task of the program. -/
inductive Task where
  | analyze | deps | languages
deriving Repr, DecidableEq

namespace Task

/-- The task with a name. -/
def ofName? (name : String) : Option Task :=
  match name with
  | "analyze" => some .analyze
  | "deps" => some .deps
  | "languages" => some .languages
  | _ => none

/-- The options that every command has. -/
def helpSpellings : List (String × Switch) :=
  [("-h", .help), ("--help", .help)]

/-- The options of the tasks that are about a file. -/
def fileSpellings : List (String × Switch) :=
  helpSpellings ++ [("--language", .language), ("-l", .language), ("--json", .json),
    ("--verify", .verify), ("--config", .config), ("--log-level", .logLevel)]

/-- The arguments of a task. -/
def grammar : Task → Grammar
  | .analyze => ⟨fileSpellings ++ [("--deps", .deps), ("--workspace", .workspace)], true⟩
  | .deps => ⟨fileSpellings, true⟩
  | .languages => ⟨helpSpellings, false⟩

/-- The arguments before the name of a task. -/
def mainGrammar : Grammar :=
  ⟨helpSpellings, false⟩

/-- The task that arguments ask for. The first word names it, and what follows are its arguments;
the second component tells whether an argument before it has no use. -/
def requested (hasExtra : Bool) : List String → Except Ending (Task × Choices)
  | [] => .error .misuse
  | arg :: args => do
    match ← mainGrammar.form arg.toList with
    | .word name =>
      match ofName? name with
      | none => .error .misuse
      | some task =>
        let c ← task.grammar.choices args
        if hasExtra then .error .misuse else return (task, c)
    | .mark => .error .misuse
    | .unknown => requested true args
    | .option s isShort attached =>
      let found ← mainGrammar.switches s isShort attached
      let c ← Choices.apply {} found ""
      requested (hasExtra || c.hasExtra) args

/-- The task that arguments ask for, with its choices. -/
def ofArguments (args : List String) : Except Ending (Task × Choices) :=
  requested false args

end Task

end SourceSurvey.CommandLine
