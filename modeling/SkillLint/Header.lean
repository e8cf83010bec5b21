import SkillLint.Document
import SkillLint.Header.Line
import SkillLint.Rule

/-!
# Headers

The header of a package document names the skill, describes it and may list the tools it uses. Reading it gives the
fields and a finding for each line that is out of order: one that is no entry, one whose key has been seen, one whose
key is unknown; and then one for each mandatory field that is missing. The first entry of a key counts.
-/

namespace SkillLint

/-- The fields of a header that the checks look at. -/
structure HeaderFields where
  name : Option String
  description : Option String
  /-- The tools that the header lists; none when it has no such key. -/
  allowedTools : Option (List String)
deriving DecidableEq, Repr

namespace Header

/-- The keys that a header may have. -/
def knownKeys : List String :=
  ["name", "description", "allowed-tools", "license", "metadata", "version"]

/-- What has been read of a header. -/
structure Progress where
  fields : HeaderFields
  /-- The keys of the entries so far. -/
  seen : List String
  /-- Whether items still belong to the tool list. -/
  collecting : Bool
  findings : List Finding
deriving DecidableEq, Repr

/-- Nothing read so far. -/
def Progress.start : Progress :=
  ⟨⟨none, none, none⟩, [], false, []⟩

/-- The finding about a line that is no entry. -/
def malformedLine (number : Nat) (text : String) : Finding :=
  Rule.headerMalformedLine.onLine number ("Header line is not a 'key: value' pair: '" ++ text ++ "'")

/-- The finding about a key that has been seen before. -/
def duplicateKey (number : Nat) (key : String) : Finding :=
  Rule.headerDuplicateKey.onLine number ("Key '" ++ key ++ "' appears more than once; the first value is used")

/-- The finding about a key that is not known. -/
def unknownKey (number : Nat) (key : String) : Finding :=
  Rule.headerUnknownKey.onLine number
    ("Unrecognized header key '" ++ key ++ "' (expected one of: " ++ ", ".intercalate knownKeys ++ ")")

/-- The progress after the first entry of a key. -/
def Progress.enter (p : Progress) (number : Nat) (key : String) (value : List Char) : Progress :=
  let p := { p with seen := p.seen ++ [key], collecting := false }
  if key = "name" then { p with fields := { p.fields with name := some (String.ofList (unquote value)) } }
  else if key = "description" then
    { p with fields := { p.fields with description := some (String.ofList (unquote value)) } }
  else if key = "allowed-tools" then
    { p with
      fields := { p.fields with allowedTools := some ((toolEntries value).map String.ofList) }
      collecting := value.isEmpty }
  else if key ∈ knownKeys then p
  else { p with findings := p.findings ++ [unknownKey number key] }

/-- The progress after one more line, the one with the given number in its document. -/
def Progress.read (p : Progress) (number : Nat) : Line → Progress
  | .filler => p
  | .continuation => p
  | .item text =>
    if p.collecting then
      { p with
        fields :=
          { p.fields with
            allowedTools := p.fields.allowedTools.map fun tools => tools ++ (toolEntries text).map String.ofList } }
    else p
  | .malformed text =>
    { p with collecting := false, findings := p.findings ++ [malformedLine number (String.ofList text)] }
  | .entry key value =>
    let key := String.ofList key
    if key ∈ p.seen then { p with collecting := false, findings := p.findings ++ [duplicateKey number key] }
    else p.enter number key value

/-- The progress after some lines, the first of which has the given number in its document. -/
def Progress.readAll (p : Progress) (number : Nat) : List (List Char) → Progress
  | [] => p
  | line :: rest => (p.read number (Line.ofText line)).readAll (number + 1) rest

/-- The findings about mandatory fields that a header lacks. -/
def missingFields (fields : HeaderFields) : List Finding :=
  (if fields.name.isNone then [Rule.headerMissingName.onField "name" "Missing required field 'name' in header"] else [])
    ++ (if fields.description.isNone then
        [Rule.headerMissingDescription.onField "description" "Missing required field 'description' in header"]
      else [])

end Header

/-- What reading the document of a package gives. -/
structure Extraction where
  fields : HeaderFields
  /-- The header as it is written. -/
  raw : String
  /-- The number, counted from one, of the first body line. -/
  bodyStart : Nat
  body : String
  /-- The findings about the header itself. -/
  findings : List Finding
deriving DecidableEq, Repr

namespace Extraction

/-- What reading a document gives. -/
def ofDocument (d : Document) : Extraction :=
  let read := Header.Progress.start.readAll d.headerStart d.header
  { fields := read.fields
    raw := d.headerText
    bodyStart := d.bodyStart
    body := d.bodyText
    findings := read.findings ++ Header.missingFields read.fields }

/-- What reading a text gives, if the text has a header. -/
def ofText? (content : String) : Option Extraction :=
  (Document.ofText? content).map ofDocument

end Extraction

end SkillLint
