import SkillLint.Template
import SkillLint.Text.Lines
import SkillLint.Tree.Write

/-!
# New packages

A new package is a directory named like the skill, with the files of a template in which the placeholders for the name,
the description and the title are replaced. The request is examined and all files of the template are read before
anything is written.
-/

namespace SkillLint

/-- What a new package is made from. -/
structure ScaffoldRequest where
  name : String
  description : String
  template : Template
  /-- The directory in which the directory of the package is created. -/
  destination : Path := ⟨"."⟩
  /-- Whether a directory that exists may be written into. -/
  force : Bool := false

/-- Why a package cannot be created. -/
inductive ScaffoldError where
  | emptyName
  /-- The name has a separator in it, or is one dot or two. -/
  | notOneName (name : String)
  | targetExists (target : Path)
  | listing (error : ListingError)
  | notCreated (directory : Path) (cause : FileError)
  | notWritten (file : Path) (cause : FileError)
deriving DecidableEq, Repr

/-- An error as it is told to the user. -/
def ScaffoldError.message : ScaffoldError → String
  | .emptyName => "Skill name must not be empty"
  | .notOneName name => "Skill name '" ++ name ++ "' must be a single directory name"
  | .targetExists target => target.text ++ " already exists (use --force to write into it)"
  | .listing error => error.message
  | .notCreated directory cause => "Failed to create " ++ directory.text ++ ": " ++ cause.message
  | .notWritten file cause => "Failed to write " ++ file.text ++ ": " ++ cause.message

namespace ScaffoldRequest

/-- The name without blanks around it. -/
def trimmedName (r : ScaffoldRequest) : String :=
  String.ofList (Text.trim r.name.toList)

/-- The directory of the package. -/
def target (r : ScaffoldRequest) : Path :=
  r.destination.child r.trimmedName

/-- The values of the placeholders; the description is brought onto one line, since a header has one line per entry. -/
def placeholderValues (r : ScaffoldRequest) : List (String × String) :=
  [("name", r.trimmedName), ("description", String.ofList (Text.flatten r.description.toList)),
    ("title", Template.titleOf r.trimmedName)]

/-- Why the request is refused before the template is looked at, if it is. -/
def refusal? (r : ScaffoldRequest) (t : FileTree) : Option ScaffoldError :=
  let name := r.trimmedName
  if name = "" then some .emptyName
  else if '/' ∈ name.toList ∨ '\\' ∈ name.toList ∨ name = "." ∨ name = ".." then some (.notOneName name)
  else if t.contains r.target && !r.force then some (.targetExists r.target)
  else none

/-- What a file of the package holds: text has its placeholders replaced, and anything else is copied. -/
def render (r : ScaffoldRequest) (content : ByteArray) : ByteArray :=
  match String.fromUTF8? content with
  | some text => (Template.substitute r.placeholderValues text).toUTF8
  | none => content

/-- Writes one file of the package, after the directories that lead to it. -/
def writeOne (r : ScaffoldRequest) (t : FileTree) (file : TemplateFile) : FileTree.Attempt ScaffoldError Unit :=
  let path := r.target.join file.path
  let directory := path.parent?.getD ⟨""⟩
  match t.createDirectories directory with
  | (made, .error cause) => (made, .error (.notCreated directory cause))
  | (made, .ok ()) =>
    match made.writeFile path (r.render file.content) with
    | (last, .error cause) => (last, .error (.notWritten path cause))
    | (last, .ok ()) => (last, .ok ())

/-- Writes files of the package up to the first that cannot be written. -/
def writeAll (r : ScaffoldRequest) (t : FileTree) (files : List TemplateFile) : FileTree.Attempt ScaffoldError Unit :=
  t.attemptAll r.writeOne files

/-- Creates the package and returns its directory. -/
def run (r : ScaffoldRequest) (t : FileTree) : FileTree.Attempt ScaffoldError Path :=
  match r.refusal? t with
  | some e => (t, .error e)
  | none =>
    match r.template.files t with
    | .error e => (t, .error (.listing e))
    | .ok files =>
      match r.writeAll t files with
      | (made, .ok ()) => (made, .ok r.target)
      | (made, .error e) => (made, .error e)

end ScaffoldRequest

end SkillLint
