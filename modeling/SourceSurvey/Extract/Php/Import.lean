import SourceSurvey.Extract.Php.Basic

/-!
# Imports of a PHP file

Uses of namespaces, grouped and flat, and included files.
-/

namespace SourceSurvey.Extract.Php

open Pattern

/-- The clause of a `use` statement. -/
def useClause : Pattern (List Char) := do
  lit "use"
  blanks1
  let _ ← opt do
    let _ ← oneOf ["function", "const"]
    blanks1
  let clause ← runLazy notLineFeed 1
  blanks
  lit ";"
  return clause

/-- The path of an included file. -/
def includePath : Pattern (List Char) := do
  let _ ← oneOf ["require", "include"]
  let _ ← opt (lit "_once")
  wordBoundary
  let _ ← run (fun c => !isPlainQuote c) 0
  quotedText

/-- The members that a `use` clause lists, each with its full path. -/
def usedPaths (clause : List Char) : List (List Char) :=
  let text := Text.trim (Text.replaceRuns Text.isSpace [' '] clause)
  let flat := topLevelParts ',' text
  match Text.find? ['\x7b'] text with
  | none => flat
  | some n =>
    if text.getLast? == some '\x7d' then
      let root := Text.trim (Text.trimEndWhile (· == '\\') (Text.trim (text.take n)))
      let inside := (text.drop (n + 1)).dropLast
      ((Text.splitAt ',' inside).filter fun m => !Text.isBlank m).map fun m =>
        root ++ '\\' :: Text.trim m
    else flat

/-- The modules that a `use` clause imports, each with the name that it binds: its alias or else
the last segment of its path. -/
def usedModules (clause : List Char) : List (List Char × List Char) :=
  (usedPaths clause).filterMap fun member =>
    match aliasMark.splitOn (Text.trim member) with
    | [] => none
    | path :: aliases =>
      let module := (Text.trim path).dropWhile (· == '\\')
      if module.isEmpty then none
      else some (module, match aliases with
        | [] => Text.afterLast '\\' module
        | bound :: _ => Text.trim bound)

/-- The import at a place of the given brace depth, with the number of further lines that it takes.
Inside braces a `use` pulls in a trait and imports nothing. -/
def importsAt (here : Nat × Place) : List ImportStatement × Nat :=
  let (depth, p) := here
  let code := Text.trim p.code
  if "use ".toList.isPrefixOf code && depth == 0 then
    let (statement, taken) := extendWhile (fun t => !t.contains ';')
      (fun t l => t ++ ' ' :: Text.trim l) code (p.below.map (·.code))
    let pairs := ((useClause.matchStart? statement).map usedModules).getD []
    (pairs.map fun (module, bound) =>
      .spanning (.ofList module) [.ofList bound] true p.number (p.number + taken), taken)
  else if ["require", "include"].any (·.toList.isPrefixOf code) then
    match includePath.matchStart? (Text.trim (CommentRules.slashAndHash.cutLineComment p.raw)) with
    | some path => ([.spanning (.ofList path) [] false p.number p.number], 0)
    | none => ([], 0)
  else ([], 0)

end SourceSurvey.Extract.Php
