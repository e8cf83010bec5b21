import SkillLint.Check
import SkillLint.Tree

/-!
# Packages

A package is a directory with a document named `SKILL.md`, which is read once, when the package is opened. Validating a
package reads the header of its document and makes all checks on it. A package that cannot be opened, or whose document
has no header, is not validated at all.
-/

namespace SkillLint

/-- Why a package cannot be inspected. -/
inductive PackageError where
  | notFound (root : Path)
  | notDirectory (root : Path)
  | noDocument (root : Path)
  | unreadable (document : Path) (cause : FileError)
  | missingHeader
deriving DecidableEq, Repr

/-- An error as it is told to the user. -/
def PackageError.message : PackageError → String
  | .notFound root => "package directory not found: " ++ root.text
  | .notDirectory root => "not a directory: " ++ root.text
  | .noDocument root => documentName ++ " not found in " ++ root.text
  | .unreadable document cause => "failed to read " ++ document.text ++ ": " ++ cause.message
  | .missingHeader => "missing header: expected a block delimited by two '---' lines"

/-- A package that has been opened. -/
structure Package where
  root : Path
  /-- The text of the document. -/
  content : String
deriving DecidableEq, Repr

/-- The context in which the checks of a document run. -/
def Extraction.context (e : Extraction) (config : Config) (present : String → Bool) : Context :=
  ⟨e.fields, e.bodyStart, e.body, config, present⟩

/-- The report on a document whose header has been read. -/
def Extraction.report (e : Extraction) (config : Config) (present : String → Bool) : Report :=
  let ran := Check.runAll (e.context config present) Check.all
  Report.withoutDisabled { ran with findings := e.findings ++ ran.findings } config.disable

/-- The report on the text of a document, where `present` tells which files lie in its package. -/
def validateText (content : String) (config : Config) (present : String → Bool) : Except PackageError Report :=
  match Extraction.ofText? content with
  | none => .error .missingHeader
  | some e => .ok (e.report config present)

namespace Package

/-- Opens the package in a directory. -/
def openAt (t : FileTree) (root : Path) : Except PackageError Package :=
  if !t.contains root then .error (.notFound root)
  else if !t.isDirectory root then .error (.notDirectory root)
  else if !t.isFile (root.child documentName) then .error (.noDocument root)
  else
    match t.readText (root.child documentName) with
    | .error cause => .error (.unreadable (root.child documentName) cause)
    | .ok content => .ok ⟨root, content⟩

/-- Whether a path taken from the root of the package leads to something. -/
def holds (t : FileTree) (p : Package) (file : String) : Bool :=
  t.contains (p.root.join ⟨file⟩)

/-- The report on a package that has been opened. -/
def validate (t : FileTree) (p : Package) (config : Config) : Except PackageError Report :=
  validateText p.content config (p.holds t)

/-- The report on the package in a directory. -/
def validateAt (t : FileTree) (root : Path) (config : Config) : Except PackageError Report :=
  match openAt t root with
  | .error e => .error e
  | .ok p => p.validate t config

end Package

end SkillLint
