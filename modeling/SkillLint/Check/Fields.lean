import SkillLint.Config
import SkillLint.Header
import SkillLint.Text.Case
import SkillLint.Text.Word
import SkillLint.Wording

/-!
# The fields of a header

The checks of the name, the description and the tools of a skill, and what all checks look at.
-/

namespace SkillLint

/-!
## What a check may look at

The checks see the fields and the body of a document, the settings, and of the file system one thing only: whether a
path, taken from the root of the package, leads to something.
-/

/-- What the checks of one validation run look at. -/
structure Context where
  fields : HeaderFields
  /-- The number, counted from one, of the first body line of the document. -/
  bodyStart : Nat
  body : String
  config : Config
  /-- Whether a path taken from the root of the package leads to something. -/
  present : String → Bool

/-- The number in the document of a body line that is counted from zero. -/
def Context.documentLine (c : Context) (line : Nat) : Nat :=
  c.bodyStart + line

/-- The finding alone if the condition holds, and nothing otherwise. -/
def Finding.listIf (condition : Bool) (f : Finding) : List Finding :=
  if condition then [f] else []

end SkillLint

namespace SkillLint.Check

/-!
## The name of a skill

A name is made of lowercase ASCII letters, digits and hyphens, is not too long and has no reserved word in it. Stray
hyphens and names that say nothing draw warnings. An empty name is reported as such and not examined further.
-/

/-- Words that no name may contain, in whatever case. -/
def reservedWords : List String :=
  ["anthropic", "claude"]

/-- Names that do not tell one skill from another. -/
def genericNames : List String :=
  ["helper", "utils", "tools", "data", "files", "documents", "skill", "misc"]

/-- Whether a character may stand in a name. -/
def isNameChar (c : Char) : Bool :=
  c.isLower || c.isDigit || c == '-'

/-- The characters of a name that may not stand in it, each once, in order of appearance. -/
def invalidChars (name : List Char) : List Char :=
  (name.filter fun c => !isNameChar c).eraseDups

/-- Whether a text has an angle bracket. -/
def hasAngleBrackets (s : List Char) : Bool :=
  s.any fun c => c == '<' || c == '>'

/-- Whether a name has a hyphen at an end, or two in a row. -/
def hasStrayHyphens (name : List Char) : Bool :=
  name.head? == some '-' || name.getLast? == some '-' || Text.hasPart ['-', '-'] name

/-- Invalid characters as a message lists them. -/
def listChars (cs : List Char) : String :=
  ", ".intercalate (cs.map fun c => String.ofList ['\'', c, '\''])

/-- The findings about a name. -/
def checkName (name : String) (maxLength : Nat) : List Finding :=
  if name = "" then [Rule.nameEmpty.onField "name" "Name must not be empty"]
  else
    let invalid := invalidChars name.toList
    Finding.listIf (!invalid.isEmpty)
        (Rule.nameInvalidChars.onField "name"
          ("Name '" ++ name ++ "' contains invalid characters (" ++ listChars invalid
            ++ "); use lowercase letters, digits and hyphens only"))
      ++ Finding.listIf (maxLength < name.length)
        (Rule.nameTooLong.onField "name"
          ("Name is " ++ toString name.length ++ " characters long (maximum " ++ toString maxLength ++ ")"))
      ++ (reservedWords.filter fun word => Text.hasPart word.toList (Text.lowerAscii name.toList)).map
        (fun word => Rule.nameReservedWord.onField "name" ("Name must not contain the reserved word '" ++ word ++ "'"))
      ++ Finding.listIf (hasAngleBrackets name.toList)
        (Rule.nameAngleBrackets.onField "name" "Name must not contain '<' or '>'")
      ++ Finding.listIf (hasStrayHyphens name.toList)
        (Rule.nameHyphenation.onField "name" ("Name '" ++ name ++ "' has leading, trailing or repeated hyphens"))
      ++ Finding.listIf (decide (name ∈ genericNames))
        (Rule.nameGeneric.onField "name"
          ("Name '" ++ name ++ "' is too generic; qualify it with a domain (e.g. 'pdf-" ++ name ++ "')"))

/-- The findings about the name field, if the header has one. -/
def nameFindings (c : Context) : List Finding :=
  match c.fields.name with
  | some name => checkName name c.config.thresholds.maxNameLength
  | none => []

/-!
## The description of a skill

A description is not blank, not too long and free of angle brackets. It should be written in the third person and say
when the skill is to be used. A blank description is reported as such and not examined further.
-/

/-- The phrase, in lowercase, with which a description tells when the skill applies. -/
def triggerPhrase : String := "use when"

/-- The findings about a description. -/
def checkDescription (description : String) (maxLength : Nat) : List Finding :=
  if Text.isBlankText description.toList then
    [Rule.descriptionEmpty.onField "description" "Description must not be empty"]
  else
    let found := Wording.pronounsIn description.toList
    Finding.listIf (maxLength < description.length)
        (Rule.descriptionTooLong.onField "description"
          ("Description is " ++ toString description.length ++ " characters long (maximum " ++ toString maxLength
            ++ ")"))
      ++ Finding.listIf (hasAngleBrackets description.toList)
        (Rule.descriptionAngleBrackets.onField "description" "Description must not contain '<' or '>'")
      ++ Finding.listIf (!found.isEmpty)
        (Rule.descriptionPerson.onField "description"
          ("Description uses first/second person (" ++ ", ".intercalate (found.map String.ofList)
            ++ "); write in third person"))
      ++ Finding.listIf (!Text.hasPart triggerPhrase.toList (Text.lowerAscii description.toList))
        (Rule.descriptionNoTrigger.onField "description"
          "Description should say when to use the skill (e.g. 'Use when ...')")

/-- The findings about the description field, if the header has one. -/
def descriptionFindings (c : Context) : List Finding :=
  match c.fields.description with
  | some description => checkDescription description c.config.thresholds.maxDescriptionLength
  | none => []

/-!
## The tools of a skill

Every entry of the tool list should name a known tool: a built-in one, one that the settings add, or one with the marker
of tools that a server provides. An entry with arguments, such as `Bash(git status:*)`, is judged by the name before its
first parenthesis. A list without entries draws a single warning.
-/

/-- The names of the built-in tools. -/
def knownTools : List String :=
  ["AskUserQuestion", "Bash", "BashOutput", "Edit", "ExitPlanMode", "Glob", "Grep", "KillShell", "LS", "MultiEdit",
    "NotebookEdit", "NotebookRead", "Read", "Skill", "SlashCommand", "Task", "TodoWrite", "WebFetch", "WebSearch",
    "Write"]

/-- What the names of tools that a server provides start with. -/
def serverToolMarker : String := "mcp__"

/-- The name of the tool that an entry is about. -/
def toolName (entry : String) : String :=
  String.ofList (Text.trim (entry.toList.takeWhile (· != '(')))

/-- Whether an entry names a known tool. -/
def isKnownTool (entry : String) (extra : List String) : Bool :=
  let name := toolName entry
  decide (name ∈ knownTools) || serverToolMarker.toList.isPrefixOf name.toList || decide (name ∈ extra)

/-- The findings about a tool list. -/
def checkTools (tools extra : List String) : List Finding :=
  if tools.isEmpty then [Rule.toolsEmpty.onField "allowed-tools" "allowed-tools is present but lists no tools"]
  else
    (tools.filter fun entry => !isKnownTool entry extra).map fun entry =>
      Rule.toolsUnknown.onField "allowed-tools" ("Unrecognized tool '" ++ entry ++ "' in allowed-tools")

/-- The findings about the tool list, if the header has one. -/
def toolsFindings (c : Context) : List Finding :=
  match c.fields.allowedTools with
  | some tools => checkTools tools c.config.extraTools
  | none => []

end SkillLint.Check
