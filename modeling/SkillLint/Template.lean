import SkillLint.Document
import SkillLint.Text.Case
import SkillLint.Text.Word
import SkillLint.Tree.Glob

/-!
# Templates

A template is one of two built-in ones or a directory that holds a document. The files of a directory are all files
below it, at whatever depth. They are listed by a pattern made from the path of the directory, so a path in which a
character has a meaning in patterns is read as a pattern, and a file that is listed under another path than the
directory's own lies outside the template.
-/

namespace SkillLint.Template

/-!
## Placeholders

A placeholder is a word in two pairs of braces. Substitution goes through a text once and replaces each placeholder that
has a value by the value; one without a value stays as it is written, and values are not searched again.
-/

/-- A placeholder for a variable, as it is written. -/
def placeholder (name : List Char) : List Char :=
  '{' :: '{' :: (name ++ ['}', '}'])

/-- The word of the placeholder that a text starts with. -/
def readPlaceholder? : List Char → Option (List Char)
  | '{' :: '{' :: rest =>
    let word := Text.leadingWord rest
    if !word.isEmpty && ['}', '}'].isPrefixOf (rest.drop word.length) then some word else none
  | _ => none

/-- What a placeholder is replaced by. -/
def valueOf (values : List (String × String)) (word : List Char) : List Char :=
  match values.lookup (String.ofList word) with
  | some value => value.toList
  | none => placeholder word

/-- The text with its placeholders replaced, behind `skip` characters that belong to an earlier placeholder. -/
def substituteFrom (values : List (String × String)) : Nat → List Char → List Char
  | _, [] => []
  | skip + 1, _ :: rest => substituteFrom values skip rest
  | 0, c :: rest =>
    match readPlaceholder? (c :: rest) with
    | some word => valueOf values word ++ substituteFrom values (word.length + 3) rest
    | none => c :: substituteFrom values 0 rest

/-- The text with its placeholders replaced. -/
def substitute (values : List (String × String)) (text : String) : String :=
  String.ofList (substituteFrom values 0 text.toList)

/-- A text starts with the placeholder that is read at its front, and the word in it is not empty. -/
theorem readPlaceholder?_sound {s word : List Char} (h : readPlaceholder? s = some word) :
    word ≠ [] ∧ ∃ rest, s = placeholder word ++ rest := by
  unfold readPlaceholder? at h
  split at h
  · rename_i rest
    simp only [Option.ite_none_right_eq_some, Bool.and_eq_true, Option.some.injEq] at h
    obtain ⟨⟨hne, hp⟩, rfl⟩ := h
    refine ⟨by simpa using hne, ?_⟩
    obtain ⟨more, hm⟩ := List.isPrefixOf_iff_prefix.1 hp
    refine ⟨more, ?_⟩
    have hs : rest = Text.leadingWord rest ++ rest.dropWhile Text.isWord := List.takeWhile_append_dropWhile.symm
    have hd : rest.drop (Text.leadingWord rest).length = rest.dropWhile Text.isWord := by
      rw [congrArg (List.drop (Text.leadingWord rest).length) hs, List.drop_left]
    have ht : Text.leadingWord rest ++ rest.drop (Text.leadingWord rest).length = rest := by
      rw [hd, ← hs]
    rw [placeholder, List.cons_append, List.cons_append, List.append_assoc, hm, ht]
  · simp at h

/-!
## Titles

The title of a skill is its name in words: the parts between the hyphens, each with its first character in uppercase.
-/

/-- A text with its first character in uppercase. -/
def capitalize : List Char → List Char
  | [] => []
  | c :: rest => Text.uppercase c ++ rest

/-- The title that a name stands for. -/
def titleOf (name : String) : String :=
  String.ofList ([' '].intercalate (((name.toList.splitOn '-').filter fun part => !part.isEmpty).map capitalize))

/-!
## The built-in templates

The basic template is a document with two sections to fill in. The other one refers from the first section to a second
file for detail, and brings that file with it.
-/

/-- The name of the second file of the template with a reference. -/
def referenceName : String := "reference.md"

/-- A placeholder in a line of a template. -/
def slot (name : String) : String :=
  String.ofList (placeholder name.toList)

/-- Lines, each with a line feed behind it. -/
def textOfLines (lines : List String) : String :=
  String.join (lines.map (· ++ "\n"))

/-- The header and the title of a new document. -/
def openingLines : List String :=
  ["---", "name: " ++ slot "name", "description: " ++ slot "description", "---", "", "# " ++ slot "title", "",
    "## Instructions", "", "Describe, step by step, how to carry out the task this skill covers."]

/-- The last section of a new document. -/
def closingLines : List String :=
  ["", "## Examples", "", "Show a representative input and the result it should produce."]

/-- The document of the basic template. -/
def basicDocument : String :=
  textOfLines (openingLines ++ closingLines)

/-- The document of the template with a reference. -/
def referringDocument : String :=
  textOfLines (openingLines ++ ["Keep this file short and move detail into [reference.md](reference.md)."] ++ closingLines)

/-- The file that the document of the template with a reference refers to. -/
def referenceDocument : String :=
  textOfLines ["# " ++ slot "title" ++ " reference", "", "Detailed material that is only needed for some requests goes here."]

end SkillLint.Template

namespace SkillLint

/-! ## Templates and their files -/

/-- Where the files of a new package come from. -/
inductive Template where
  | basic
  | withReference
  | directory (path : Path)
deriving DecidableEq, Repr

/-- Why an argument does not name a template. -/
inductive TemplateError where
  /-- It is neither the name of a built-in template nor the path of a directory. -/
  | unknown (argument : String)
  /-- The directory has no document. -/
  | noDocument (path : Path)
deriving DecidableEq, Repr

/-- Why the files of a template cannot be listed. -/
inductive ListingError where
  /-- The path of the directory is not a pattern. -/
  | badPattern (error : Glob.PatternError)
  /-- A listed file does not lie below the path of the directory. -/
  | outside (path : Path)
  /-- A listed file cannot be read. -/
  | unreadable (path : Path) (cause : FileError)
deriving DecidableEq, Repr

/-- A file of a template: where it lies below the template, and what it holds. -/
structure TemplateFile where
  path : Path
  content : ByteArray

/-- The names of the built-in templates. -/
def builtinTemplates : List String :=
  ["basic", "with-reference"]

/-- An error as it is told to the user. -/
def TemplateError.message : TemplateError → String
  | .unknown argument =>
    "Unknown template '" ++ argument ++ "'. Use one of: " ++ ", ".intercalate builtinTemplates
      ++ ", or a template directory"
  | .noDocument path => "Template directory " ++ path.text ++ " has no " ++ documentName

/-- An error as it is told to the user. -/
def ListingError.message : ListingError → String
  | .badPattern error => "Invalid template directory path: " ++ error.message
  | .outside path => "Template file " ++ path.text ++ " outside template: prefix not found"
  | .unreadable path cause => "Failed to read template file " ++ path.text ++ ": " ++ cause.message

namespace Template

/-- The template that an argument names. -/
def resolve (t : FileTree) (argument : String) : Except TemplateError Template :=
  if argument = "basic" then .ok .basic
  else if argument = "with-reference" then .ok .withReference
  else if !t.isDirectory ⟨argument⟩ then .error (.unknown argument)
  else if !t.isFile (Path.child ⟨argument⟩ documentName) then .error (.noDocument ⟨argument⟩)
  else .ok (.directory ⟨argument⟩)

/-- The pattern for everything below a directory. -/
def patternBelow (path : Path) : Path :=
  (path.child "**").child "*"

/-- A listed path as a file of the template in the given directory. -/
def fileAt (t : FileTree) (directory path : Path) : Except ListingError TemplateFile :=
  match path.below? directory with
  | none => .error (.outside path)
  | some rest =>
    match t.read path with
    | .error cause => .error (.unreadable path cause)
    | .ok content => .ok ⟨Path.ofNames (rest.map Path.Component.text), content⟩

/-- Files in the order of their paths; those with one path stay in the order in which they are given. -/
def sortFiles (files : List TemplateFile) : List TemplateFile :=
  files.mergeSort fun a b => (compare a.path b.path).isLE

/-- The files of a directory, in the order of their paths. -/
def directoryFiles (t : FileTree) (directory : Path) : Except ListingError (List TemplateFile) :=
  match Glob.list t (patternBelow directory) with
  | .error e => .error (.badPattern e)
  | .ok paths => ((paths.filter t.isFile).mapM (fileAt t directory)).map sortFiles

/-- The files of a template. -/
def files (t : FileTree) : Template → Except ListingError (List TemplateFile)
  | basic => .ok [⟨⟨documentName⟩, basicDocument.toUTF8⟩]
  | withReference =>
    .ok [⟨⟨documentName⟩, referringDocument.toUTF8⟩, ⟨⟨referenceName⟩, referenceDocument.toUTF8⟩]
  | directory path => directoryFiles t path

end Template

end SkillLint
