import SourceSurvey.Summary.Basic
import SourceSurvey.Value.Basic

/-!
# Machine-readable reports

Summaries and their parts as values of a data format. The order of the entries is the order in which
a report lists them.
-/

namespace SourceSurvey

namespace Value

/-- A list of texts. -/
def strings (texts : List String) : Value :=
  .list (texts.map .string)

/-- A number that counts something. -/
def nat (n : Nat) : Value :=
  .int n

/-- A value that may be missing. -/
def ofOption {α : Type} (f : α → Value) : Option α → Value
  | some a => f a
  | none => .null

end Value

open Value

/-- A parameter or an attribute in a report. -/
def Slot.report (p : Slot) : Value :=
  object [("name", .string p.name), ("type", .string p.type),
    ("default", ofOption .string p.default)]

/-- A routine in a report. -/
def Routine.report (c : Routine) : Value :=
  object [("name", .string c.name), ("params", .list (c.params.map Slot.report)),
    ("return_type", .string c.returnType), ("decorators", strings c.decorators),
    ("line_number", nat c.line), ("is_async", .bool c.isAsync),
    ("is_private", .bool c.isPrivate), ("complexity", nat c.complexity)]

/-- A type in a report. -/
def TypeDeclaration.report (t : TypeDeclaration) : Value :=
  object [("name", .string t.name), ("bases", strings t.bases),
    ("methods", .list (t.methods.map Routine.report)),
    ("attributes", .list (t.attributes.map Slot.report)),
    ("decorators", strings t.decorators), ("line_number", nat t.line)]

/-- An import in a report. -/
def ImportStatement.report (i : ImportStatement) : Value :=
  object [("module", .string i.module), ("names", strings i.names), ("is_from", .bool i.isFrom),
    ("line_number", nat i.line), ("end_line_number", nat i.endLine)]

/-- A meta block in a report. -/
def MetaBlock.report (b : MetaBlock) : Value :=
  object [("name", ofOption .string b.name), ("type", ofOption .string b.type),
    ("desc", ofOption .string b.desc), ("inputs", ofOption strings b.inputs),
    ("outputs", ofOption strings b.outputs), ("deps", ofOption strings b.deps),
    ("methods", ofOption strings b.methods), ("errors", ofOption strings b.errors),
    ("raw", object (b.raw.map fun (k, v) => (k, .string v)))]

/-- A hardcoded value in a report. -/
def HardcodedLiteral.report (h : HardcodedLiteral) : Value :=
  object [("value", .string h.value), ("kind", .string h.kind.name),
    ("line_number", nat h.line), ("context", .string h.context)]

/-- An unused declaration in a report. -/
def UnusedName.report (u : UnusedName) : Value :=
  object [("name", .string u.name), ("kind", .string u.kind.name),
    ("line_number", nat u.line)]

/-- The status of a dependency in a report. -/
def DependencyStatus.report (d : DependencyStatus) : Value :=
  object [("name", .string d.name), ("status", .string d.status.name),
    ("line_number", nat d.line), ("install_hint", ofOption .string d.installHint)]

/-- A marker in a report. -/
def MarkerNote.report (m : MarkerNote) : Value :=
  object [("text", .string m.text), ("kind", .string m.kind), ("line_number", nat m.line)]

/-- The use of a public name in a report. -/
def NameUsage.report (u : NameUsage) : Value :=
  object [("name", .string u.name), ("kind", .string u.kind), ("used_in", strings u.usedIn)]

/-- What a file declares in a report. -/
def Extraction.report (e : Extraction) : Value :=
  object [("imports", .list (e.imports.map ImportStatement.report)),
    ("types", .list (e.types.map TypeDeclaration.report)),
    ("callables", .list (e.routines.map Routine.report)),
    ("globals", .list (e.globals.map Slot.report)),
    ("error_names", strings e.errorNames), ("risk_points", .list (e.riskPoints.map nat))]

/-- A summary in a report. -/
def Summary.report (s : Summary) : Value :=
  object [("file_name", .string s.fileName), ("language", .string s.language),
    ("annotation", ofOption MetaBlock.report s.block),
    ("types", .list (s.types.map TypeDeclaration.report)),
    ("callables", .list (s.routines.map Routine.report)),
    ("imports", .list (s.imports.map ImportStatement.report)),
    ("globals", .list (s.globals.map Slot.report)), ("connections", strings s.connections),
    ("error_type_names", strings s.errorNames),
    ("risk_point_lines", .list (s.riskPoints.map nat)), ("total_lines", nat s.totalLines),
    ("code_lines", nat s.codeLines), ("warnings", strings s.warnings),
    ("description", .string s.description),
    ("type_descriptions", object (s.typeDescriptions.map fun (k, v) => (k, .string v))),
    ("hardcoded", .list (s.hardcoded.map HardcodedLiteral.report)),
    ("unused", .list (s.unused.map UnusedName.report)),
    ("dependency_issues", .list (s.dependencyStatuses.map DependencyStatus.report)),
    ("markers", .list (s.markers.map MarkerNote.report)),
    ("external_usage", .list (s.nameUsages.map NameUsage.report))]

end SourceSurvey
