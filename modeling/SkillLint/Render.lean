import SkillLint.Json
import SkillLint.Package
import SkillLint.Report

/-!
# Rendering

How reports are shown, with colors or without.
-/

namespace SkillLint.Render

/-!
## Colored text

Text for a terminal is put between an escape sequence that starts a color and one that ends it. Where the text itself
ends a color, the sequence that starts the outer one is repeated behind that place. Without colors every function here
gives the plain text.
-/

/-- A color or a weight of text. -/
inductive Ink where
  | red
  | green
  | yellow
  | cyan
  | bold
  | dim
deriving DecidableEq, Repr

/-- The parameter of the escape sequence that starts an ink. -/
def Ink.parameter : Ink → String
  | .red => "31"
  | .green => "32"
  | .yellow => "33"
  | .cyan => "36"
  | .bold => "1"
  | .dim => "2"

/-- The escape sequence with a given parameter. -/
def escape (parameter : String) : List Char :=
  '\x1b' :: '[' :: (parameter.toList ++ ['m'])

/-- The escape sequence that ends every ink. -/
def reset : List Char :=
  escape "0"

/-- A text in which the sequence `start` is put behind each sequence that ends an ink. -/
def renew (start : List Char) : List Char → List Char
  | '\x1b' :: '[' :: '0' :: 'm' :: rest => reset ++ start ++ renew start rest
  | c :: rest => c :: renew start rest
  | [] => []

/-- A text in an ink. -/
def paint (color : Bool) (ink : Ink) (text : String) : String :=
  if color then
    String.ofList (escape ink.parameter ++ renew (escape ink.parameter) text.toList ++ reset)
  else text

/-- The icon of a severity. -/
def severityIcon (color : Bool) : Severity → String
  | .error => paint color .red "✗"
  | .warning => paint color .yellow "⚠"

/-- The icon of success. -/
def successIcon (color : Bool) : String :=
  paint color .green "✓"

/-- A line across the page, of the given width. -/
def separator (width : Nat) : String :=
  String.ofList (List.replicate width '━')

/-- The line across the page above the findings of a report. -/
def banner (color : Bool) : String :=
  paint color .cyan (separator 60)

/-- A count and a noun, in the plural unless the count is one. -/
def countNoun (count : Nat) (noun : String) : String :=
  if count = 1 then toString count ++ " " ++ noun else toString count ++ " " ++ noun ++ "s"

/-!
## Rendering reports

A finished run is rendered as text for people or as one JSON object. The text starts with the progress of the run, which
is left out on request; then, under a line across the page, come the errors, numbered, the warnings, numbered again, and
the verdict. Colors are added to the text on request and never to JSON.
-/

/-- The forms that a report can have. -/
inductive Format where
  | text
  | json
deriving DecidableEq, Repr

/-- How a report is rendered. -/
structure Style where
  format : Format := .text
  /-- Whether the progress is left out. -/
  quiet : Bool := false
  /-- Whether the text is colored. -/
  color : Bool := false
deriving DecidableEq, Repr

/-- Lines, each with a line feed behind it. -/
def ofLines (lines : List String) : String :=
  String.join (lines.map (· ++ "\n"))

/-- The line that names the package. -/
def openingLine (root : Path) : String :=
  "Validating skill package: " ++ root.text

/-- A line of progress. -/
def doneLine (color : Bool) (what : String) : String :=
  successIcon color ++ " " ++ what

/-- The progress of a run that made a report. -/
def progressLines (color : Bool) (root : Path) (r : Report) : List String :=
  [openingLine root, doneLine color ("Found " ++ documentName), doneLine color "Header parsed"]
    ++ r.checks.map (fun check => doneLine color ("Checked " ++ check)) ++ [""]

/-- The ink of a severity. -/
def severityInk : Severity → Ink
  | .error => .red
  | .warning => .yellow

/-- The plural noun for findings of a severity, as headings have it. -/
def severityNoun : Severity → String
  | .error => "error(s)"
  | .warning => "warning(s)"

/-- The heading over some findings of one severity. -/
def headingLine (color : Bool) (severity : Severity) (count : Nat) : String :=
  severityIcon color severity ++ " "
    ++ paint color (severityInk severity) ("Found " ++ toString count ++ " " ++ severityNoun severity ++ ":")

/-- A finding with its number. -/
def findingLine (color : Bool) (number : Nat) (f : Finding) : String :=
  "  " ++ toString number ++ ". " ++ paint color .dim ("[" ++ f.rule ++ "]") ++ " " ++ f.text

/-- Findings with their numbers, from the given one on. -/
def numberedLines (color : Bool) (number : Nat) : List Finding → List String
  | [] => []
  | f :: more => findingLine color number f :: numberedLines color (number + 1) more

/-- The findings of one severity under their heading, and nothing when there are none. -/
def blockLines (color : Bool) (severity : Severity) (findings : List Finding) : List String :=
  if findings.isEmpty then [] else headingLine color severity findings.length :: numberedLines color 1 findings

/-- The verdict on a report that is not clean. -/
def verdictLine (color : Bool) (r : Report) : String :=
  if r.passed then
    successIcon color ++ " " ++ paint color .green ("Validation passed with " ++ countNoun r.warnings.length "warning")
  else
    severityIcon color .error ++ " "
      ++ paint color .red ("Validation failed with " ++ countNoun r.errors.length "error")

/-- The findings and the verdict of a report. -/
def resultLines (color : Bool) (r : Report) : List String :=
  if r.clean then [banner color, successIcon color ++ " " ++ paint color .green "All validations passed!"]
  else
    banner color :: blockLines color .error r.errors
      ++ (if r.errors.isEmpty || r.warnings.isEmpty then [] else [""])
      ++ blockLines color .warning r.warnings ++ ["", verdictLine color r]

/-- The lines of a report as text. -/
def reportLines (style : Style) (root : Path) (r : Report) : List String :=
  (if style.quiet then [] else progressLines style.color root r) ++ resultLines style.color r

/-- The progress of a run that ended before any check. -/
def failureProgress (color : Bool) (root : Path) (e : PackageError) : List String :=
  [openingLine root] ++ (if e = .missingHeader then [doneLine color ("Found " ++ documentName)] else []) ++ [""]

/-- The error that ended a run, and the verdict. -/
def failureResult (color : Bool) (e : PackageError) : List String :=
  [banner color, headingLine color .error 1, "  1. " ++ e.message, "",
    severityIcon color .error ++ " " ++ paint color .red "Validation failed: the package could not be inspected"]

/-- The lines of a failed run as text. -/
def failureLines (style : Style) (root : Path) (e : PackageError) : List String :=
  (if style.quiet then [] else failureProgress style.color root e) ++ failureResult style.color e

/-- A location as a value. -/
def locationJson : Location → Json
  | .field key => .object [("field", .text key)]
  | .line number => .object [("line", .number number)]

/-- A severity as a word. -/
def severityWord : Severity → String
  | .error => "error"
  | .warning => "warning"

/-- A finding as a value. -/
def findingJson (f : Finding) : Json :=
  .object
    ((match f.location with
      | some location => [("location", locationJson location)]
      | none => [])
      ++ [("message", .text f.message), ("rule", .text f.rule), ("severity", .text (severityWord f.severity))])

/-- A report as a value. -/
def reportJson (root : Path) (r : Report) : Json :=
  .object
    [("checks", .list (r.checks.map .text)), ("clean", .bool r.clean),
      ("diagnostics", .list (r.findings.map findingJson)), ("errors", .number r.errors.length),
      ("package", .text root.text), ("passed", .bool r.passed), ("warnings", .number r.warnings.length)]

/-- A failed run as a value. -/
def failureJson (root : Path) (e : PackageError) : Json :=
  .object
    [("checks", .list []), ("clean", .bool false), ("diagnostics", .list []), ("errors", .number 1),
      ("fatal", .text e.message), ("package", .text root.text), ("passed", .bool false), ("warnings", .number 0)]

/-- A report on the package in a directory. -/
def report (style : Style) (root : Path) (r : Report) : String :=
  match style.format with
  | .text => ofLines (reportLines style root r)
  | .json => (reportJson root r).document

/-- The error that kept the package in a directory from being inspected. -/
def failure (style : Style) (root : Path) (e : PackageError) : String :=
  match style.format with
  | .text => ofLines (failureLines style root e)
  | .json => (failureJson root e).document

/-- What a validation run ended with. -/
def outcome (style : Style) (root : Path) : Except PackageError Report → String
  | .ok r => report style root r
  | .error e => failure style root e

end SkillLint.Render
