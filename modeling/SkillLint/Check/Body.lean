import SkillLint.Check.Fields
import SkillLint.Markdown.Link
import SkillLint.Path
import SkillLint.Text.Case
import SkillLint.Text.CharSet
import SkillLint.Wording

/-!
# The body of a document

The checks of what stands behind the header: the size of the body, backslashes in paths, wording that goes stale, and
references to files.
-/

namespace SkillLint.Check

/-!
## The size of the body

A body with more lines than the settings allow should move detail into other files.
-/

/-- The number of lines of a body. -/
def bodyLines (body : String) : Nat :=
  (Text.lines body.toList).length

/-- The finding about a body that is too long. -/
def bodySizeFindings (c : Context) : List Finding :=
  let most := c.config.thresholds.maxBodyLines
  Finding.listIf (most < bodyLines c.body)
    (Rule.bodyTooLong.finding
      ("Body is " ++ toString (bodyLines c.body) ++ " lines (recommended maximum " ++ toString most
        ++ "); move detail into referenced files"))

/-!
## Backslashes as path separators

The first backslash of the body that separates path segments is an error. A backslash directly behind a backtick, at the
end of its line or before a blank separates nothing. Before one of the letters n, t and r it is an escape, rather than a
separator, inside a quoted or code span and wherever no word goes on behind the letter.
-/

/-- Whether the text before a position, given backwards, leaves a span open that starts and ends with the mark. -/
def opensSpan (mark : Char) (before : List Char) : Bool :=
  before.count mark % 2 == 1

/-- Whether a character behind an escape letter makes it part of a longer word. -/
def continuesWord (c : Char) : Bool :=
  Text.isAlphanumeric c || c == '_'

/-- Whether a backslash before n, t or r is an escape, given the text before it backwards and the text behind the
letter. -/
def isEscape (before behind : List Char) : Bool :=
  opensSpan '"' before || opensSpan '`' before || !behind.head?.any continuesWord

/-- Whether a backslash separates path segments, given the text before it on its line backwards and the text behind it. -/
def separatesPath (before behind : List Char) : Bool :=
  before.head? != some '`' &&
    match behind with
    | [] => false
    | c :: rest => !Text.isBlank c && !((c == 'n' || c == 't' || c == 'r') && isEscape before rest)

/-- The blank-free word around a position, given the text before it backwards and the text from it on. -/
def wordAround (before rest : List Char) : List Char :=
  (before.takeWhile fun c => !Text.isBlank c).reverse ++ rest.takeWhile fun c => !Text.isBlank c

/-- The word around the first separating backslash of a line, where `before` is what has been read, backwards. -/
def separatorWord? (before : List Char) : List Char → Option (List Char)
  | [] => none
  | c :: rest =>
    if c = '\\' ∧ separatesPath before rest then some (wordAround before (c :: rest))
    else separatorWord? (c :: before) rest

/-- The first line, counted from `line` on, with a separating backslash, and the word around that backslash. -/
def firstSeparator? (line : Nat) : List (List Char) → Option (Nat × String)
  | [] => none
  | l :: rest =>
    match separatorWord? [] l with
    | some word => some (line, String.ofList word)
    | none => firstSeparator? (line + 1) rest

/-- The first path separator written as a backslash: its line, counted from zero, and the word it stands in. -/
def findBackslashPath (body : String) : Option (Nat × String) :=
  firstSeparator? 0 (Text.lines body.toList)

/-- The finding about the first path separator written as a backslash. -/
def pathSeparatorFindings (c : Context) : List Finding :=
  match findBackslashPath c.body with
  | some (line, word) =>
    [Rule.bodyBackslashPath.onLine (c.documentLine line)
      ("Backslash path separator in '" ++ word ++ "'; use forward slashes")]
  | none => []

/-!
## Wording that goes stale

For each lead the first time anchor of the body draws a warning, in the order of the leads.
-/

/-- The finding about the first time anchor with the given lead, if there is one. -/
def anchorFinding? (c : Context) (lead : Wording.Lead) : Option Finding :=
  (Wording.firstAnchor? lead c.body.toList).map fun anchor =>
    Rule.bodyTimeSensitive.onLine (c.documentLine (Text.lineAt c.body.toList anchor.start))
      ("Time-sensitive wording '" ++ String.ofList anchor.found
        ++ "' will go stale; describe the current behavior instead")

/-- The findings about wording that is anchored in time. -/
def timeSensitiveFindings (c : Context) : List Finding :=
  Wording.Lead.all.filterMap (anchorFinding? c)

/-!
## References to files

Every link target that is not external names a file, which should lie in the package and exist there. A link that leads
out of the package draws a warning, and a file that does not exist is an error; one link can have both. Referenced files
are not read.
-/

/-- What external targets start with, in whatever case. -/
def externalMarkers : List String :=
  ["http://", "https://", "mailto:", "ftp://", "tel:", "data:"]

/-- Whether a target names a place in the same document or one outside the file system. -/
def isExternal (target : String) : Bool :=
  target.toList.head? == some '#'
    || externalMarkers.any fun marker => marker.toList.isPrefixOf (Text.lowerAscii target.toList)

/-- A text with each `%20` replaced by a space. -/
def decodeSpaces : List Char → List Char
  | '%' :: '2' :: '0' :: rest => ' ' :: decodeSpaces rest
  | c :: rest => c :: decodeSpaces rest
  | [] => []

/-- The file that a target names: the text before the fragment and the query, with its spaces decoded. -/
def filePart (target : String) : String :=
  String.ofList (decodeSpaces (target.toList.takeWhile fun c => c != '#' && c != '?'))

/-- The findings about one reference. -/
def checkReference (c : Context) (r : Markdown.Reference) : List Finding :=
  let file := filePart r.target
  if isExternal r.target || file == "" then []
  else
    Finding.listIf (Path.escapes ⟨file⟩)
        (Rule.referencesOutsidePackage.onLine (c.documentLine r.line)
          ("Reference '" ++ r.target ++ "' points outside the package; bundle the file instead"))
      ++ Finding.listIf (!c.present file)
        (Rule.referencesMissing.onLine (c.documentLine r.line) ("Referenced file not found: " ++ file))

/-- The findings about the references of the body. -/
def referenceFindings (c : Context) : List Finding :=
  (Markdown.references c.body).flatMap (checkReference c)

end SkillLint.Check
