import SkillLint.CommandLine.Request
import SkillLint.Config.Lookup
import SkillLint.Scaffold
import SkillLint.Text.Case

/-!
# The command line

A run takes the arguments, the environment variables and a file tree, and gives the file tree behind it, what it prints
and its exit status. The status is 0 when a package has passed, warnings or not, when a package has been created, and
for help; it is 1 for everything else. Reports go to standard output, and errors that keep a run from its work to
standard error.

Help, versions, completion scripts and the usage are written by the parser of the arguments. A run is given these texts
and prints them as they are.
-/

namespace SkillLint.CommandLine

/-- The name under which the program is called. -/
def programName : String := "skillcheck"

/-- The texts that the parser of the arguments writes. -/
structure ParserTexts where
  /-- The ways to call the program. -/
  usage : String
  /-- The help on a command. -/
  help : Command → String
  /-- The version of the program. -/
  version : String
  /-- The script with which a shell completes command lines. -/
  completion : Shell → String
  /-- What is told about arguments that cannot be used. -/
  refusal : UsageError → String

/-- Texts that stand in for those of a parser: they say what they are for, and nothing else. -/
def ParserTexts.bare : ParserTexts where
  usage := "Usage: " ++ programName
  help _ := "Usage: " ++ programName ++ "\n"
  version := programName ++ "\n"
  completion shell := "# " ++ programName ++ " for " ++ shell.name ++ "\n"
  refusal _ := "error: the arguments cannot be used\n"

/-- The values of the environment variables. -/
abbrev Environment := String → Option String

/-- The environment variable that asks for reports without progress. -/
def quietVariable : String := "SKILLCHECK_QUIET"

/-- The environment variables that a run looks at. -/
def watchedVariables : List String :=
  [configVariable, quietVariable, "XDG_CONFIG_HOME", "HOME", "CLICOLOR_FORCE"]

/-- Whether the value of the environment variable asks for reports without progress. -/
def asksForQuiet (value : Option String) : Bool :=
  value.any fun v => v == "1" || Text.sameIgnoringAsciiCase v.toList "true".toList

/-- Whether messages are colored although no terminal shows them. -/
def colorsForced (e : Environment) : Bool :=
  (e "CLICOLOR_FORCE").any (· != "0")

/-- The places where a configuration can come from, given the file that the command line names. -/
def sources (e : Environment) (explicit : Option Path) : Config.Sources :=
  ⟨explicit, e configVariable, Config.userFile? (e "XDG_CONFIG_HOME") (e "HOME")⟩

/-- What a run prints, and its exit status. -/
structure Outcome where
  code : Nat
  stdout : String
  stderr : String
deriving DecidableEq, Repr

namespace Outcome

/-- The outcome of a run that has done what was asked. -/
def done (text : String) : Outcome :=
  ⟨0, text, ""⟩

/-- The outcome of a run that ends with an error behind some output. -/
def failed (e : Environment) (printed message : String) : Outcome :=
  ⟨1, printed, Render.paint (colorsForced e) .red "Error:" ++ " " ++ message ++ "\n"⟩

/-- The outcome of a run whose arguments cannot be used. -/
def refused (message : String) : Outcome :=
  ⟨1, "", message⟩

end Outcome

/-- Validates the package in a directory. -/
def validate (e : Environment) (t : FileTree) (v : Validation) (root : Path) : Outcome :=
  match Config.load t (sources e v.config) with
  | .error error => .failed e "" error.explanation
  | .ok config =>
    let style : Render.Style := ⟨v.format.getD .text, v.quiet || asksForQuiet (e quietVariable), false⟩
    let outcome := Package.validateAt t root config
    ⟨match outcome with
      | .ok report => report.exitCode
      | .error _ => 1,
      Render.outcome style root outcome, ""⟩

/-- An error that keeps a package from being inspected, with its cause, which is told twice when there is one. -/
def packageTrouble : PackageError → String
  | .unreadable document cause => (PackageError.unreadable document cause).message ++ ": " ++ cause.message
  | error => error.message

/-- The line that says that a package has been created. -/
def createdLine (color : Bool) (target : Path) : String :=
  Render.successIcon color ++ " Created " ++ target.text ++ "\n"

/-- The line that gives the verdict on a new package. -/
def verdictLine (color : Bool) (target : Path) (report : Report) : String :=
  if report.clean then Render.successIcon color ++ " Package passes all checks\n"
  else
    Render.severityIcon color (if report.passed then .warning else .error) ++ " New package has "
      ++ toString report.errors.length ++ " error(s) and " ++ toString report.warnings.length
      ++ " warning(s); run '" ++ programName ++ " " ++ target.text ++ "' for details\n"

/-- The lines that tell what to do with a new package. -/
def nextSteps (color : Bool) (target : Path) : String :=
  let arrow := "  " ++ Render.paint color .cyan "→" ++ " "
  "\n" ++ Render.ofLines
    [Render.paint color .bold "Next steps:", arrow ++ "Edit " ++ (target.child documentName).text,
      arrow ++ "Validate with: " ++ programName ++ " " ++ target.text]

/-- The outcome of a run that has created a package: the package is validated at once. -/
def inspectNew (e : Environment) (t : FileTree) (target : Path) : Outcome :=
  let color := colorsForced e
  let printed := createdLine color target
  match Config.load t (sources e none) with
  | .error error => .failed e printed error.explanation
  | .ok config =>
    match Package.validateAt t target config with
    | .error error => .failed e printed (packageTrouble error)
    | .ok report => .done (printed ++ verdictLine color target report ++ nextSteps color target)

/-- What a new package is made from, or what keeps it from being made. -/
def Creation.scaffold? (c : Creation) (t : FileTree) : Except String ScaffoldRequest :=
  match Template.resolve t (c.template.getD "basic") with
  | .error error => .error error.message
  | .ok template =>
    match c.name, c.description with
    | none, _ => .error "NAME is required when stdin is not a terminal"
    | some _, none => .error "--description is required when stdin is not a terminal"
    | some name, some description => .ok ⟨name, description, template, c.destination.getD ⟨"."⟩, c.force⟩

/-- Creates a package. -/
def create (e : Environment) (t : FileTree) (c : Creation) : FileTree × Outcome :=
  match c.scaffold? t with
  | .error message => (t, .failed e "" message)
  | .ok request =>
    match request.run t with
    | (made, .error error) => (made, .failed e "" error.message)
    | (made, .ok target) => (made, inspectNew e made target)

/-- Does what is asked for. -/
def Request.run (texts : ParserTexts) (e : Environment) (t : FileTree) : Request → FileTree × Outcome
  | validate v =>
    match v.root with
    | some root => (t, CommandLine.validate e t v root)
    | none => (t, .failed e "" ("missing required argument <PATH>\n\n" ++ texts.usage))
  | create c => CommandLine.create e t c
  | complete shell => (t, .done (texts.completion shell))
  | help command => (t, .done (texts.help command))
  | version => (t, .done texts.version)
  | refuse error => (t, .refused (texts.refusal error))

/-- Runs the program. -/
def run (e : Environment) (t : FileTree) (arguments : List String) (texts : ParserTexts := .bare) : FileTree × Outcome :=
  (Request.ofArguments arguments).run texts e t

end SkillLint.CommandLine
