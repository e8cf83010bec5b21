import SkillLint.Config
import SkillLint.Document
import SkillLint.Tree
import SkillLint.Yaml.Document

/-!
# Loading the configuration

How the configuration is read from a file, and which file it comes from.
-/

namespace SkillLint.Config

/-!
## Reading configurations

The settings stand in the header of a document, in YAML, below the key `lint`: the limits below `thresholds`, and the
lists `disable` and `extra_tools`. What is left out has its default, and other keys are ignored; a key that is not
ignored must not be repeated.
-/

/-- The texts of the items of a list. -/
def readTexts (d : Yaml.Document) : Yaml.Reader (List String) :=
  d.items (d.text "a string")

/-- The limits in a mapping. -/
def readThresholds (d : Yaml.Document) : Yaml.Reader Thresholds :=
  d.members "struct LintThresholds"
    [⟨"max_name_length", fun route node t => do return { t with maxNameLength := ← d.nat route node }⟩,
      ⟨"max_description_length", fun route node t => do return { t with maxDescriptionLength := ← d.nat route node }⟩,
      ⟨"max_body_lines", fun route node t => do return { t with maxBodyLines := ← d.nat route node }⟩]
    {}

/-- The settings in a mapping. -/
def readSettings (d : Yaml.Document) : Yaml.Reader Config :=
  d.members "struct LintConfig"
    [⟨"thresholds", fun route node c => do return { c with thresholds := ← readThresholds d route node }⟩,
      ⟨"disable", fun route node c => do return { c with disable := ← readTexts d route node }⟩,
      ⟨"extra_tools", fun route node c => do return { c with extraTools := ← readTexts d route node }⟩]
    {}

/-- The configuration in a YAML text. -/
def ofYaml (text : List Char) : Except Yaml.Error Config := do
  let d := Yaml.Document.ofText text
  d.finish (← d.members "struct Config" [⟨"lint", fun route node _ => readSettings d route node⟩] {} [] d.events)

/-- The configuration in a header; a blank one leaves every setting at its default. -/
def ofHeader (header : List Char) : Except Yaml.Error Config :=
  if Text.isBlankText header then .ok {} else ofYaml header

/-- The configuration in the text of a file. -/
def ofText (content : String) : Except ConfigFault Config :=
  match Document.ofText? content with
  | none => .error .noFrontmatter
  | some document =>
    match ofHeader document.headerText.toList with
    | .error error => .error (.malformed error)
    | .ok config =>
      match config.fault? with
      | some fault => .error fault
      | none => .ok config

end SkillLint.Config

namespace SkillLint

/-!
## Finding the configuration

The configuration comes from the first of these sources that is there: a file named by the caller, a file named by an
environment variable that is not empty, the user's settings file if it exists, and the defaults. A source that is there
but cannot be used is an error; the sources after it are not looked at.
-/

/-- The environment variable that names a configuration file. -/
def configVariable : String := "SKILLCHECK_CONFIG"

/-- Why a configuration file cannot be used. -/
inductive ConfigError where
  | unreadable (path : Path) (cause : FileError)
  | invalid (path : Path) (fault : ConfigFault)
  /-- The error of a file that the environment variable names. -/
  | fromVariable (error : ConfigError)
deriving DecidableEq, Repr

/-- An error as it is told to the user, with its faults told in some way. -/
def ConfigError.tell (explain : ConfigFault → String) : ConfigError → String
  | .unreadable path cause => "Failed to read config from " ++ path.text ++ ": " ++ cause.message
  | .invalid path fault => "Invalid config file " ++ path.text ++ ": " ++ explain fault
  | .fromVariable error => "Failed to load config named by $" ++ configVariable ++ ": " ++ error.tell explain

/-- An error as it is told to the user. -/
def ConfigError.message : ConfigError → String :=
  ConfigError.tell ConfigFault.message

/-- An error as it is told together with what is wrong in the frontmatter. -/
def ConfigError.explanation : ConfigError → String :=
  ConfigError.tell ConfigFault.explanation

namespace Config

/-- The configuration in a file. -/
def loadFile (t : FileTree) (path : Path) : Except ConfigError Config :=
  match t.readText path with
  | .error cause => .error (.unreadable path cause)
  | .ok content =>
    match ofText content with
    | .error fault => .error (.invalid path fault)
    | .ok config => .ok config

/-- The places where a configuration can come from. -/
structure Sources where
  /-- The file that the caller names. -/
  explicit : Option Path := none
  /-- The value of the environment variable. -/
  named : Option String := none
  /-- The user's settings file. -/
  user : Option Path := none

/-- The configuration from the first source that is there. -/
def load (t : FileTree) (s : Sources) : Except ConfigError Config :=
  match s.explicit with
  | some path => loadFile t path
  | none =>
    match s.named.filter (· != "") with
    | some name => (loadFile t ⟨name⟩).mapError .fromVariable
    | none =>
      match s.user.filter t.contains with
      | some path => loadFile t path
      | none => .ok {}

/-- The path of the settings file in the directory for a user's settings. -/
def settingsFile : String := "skillcheck/config.md"

/-- The user's settings file: below the directory for settings, if that is an absolute path, and else below the home
directory. -/
def userFile? (settings home : Option String) : Option Path :=
  match settings.filter fun path => Path.isAbsolute ⟨path⟩ with
  | some path => some (Path.child ⟨path⟩ settingsFile)
  | none => (home.filter (· != "")).map fun path => (Path.child ⟨path⟩ ".config").child settingsFile

end Config

end SkillLint
