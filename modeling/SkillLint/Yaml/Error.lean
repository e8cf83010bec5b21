import SkillLint.Text.Literal

/-!
# Errors of YAML texts

A text can be ill-formed, or well-formed and not what it should be. An error of the first kind is a problem at a place,
and mostly tells what was being read there and where that starts; one of the second kind is told with the route to the
node that it is about. Places are told as lines and columns counted from one, except for the start of the text, which is
not told.
-/

namespace SkillLint.Yaml

/-- A place in a text: the number of lines before it, and of the characters before it on its line. -/
structure Mark where
  line : Nat
  column : Nat
deriving DecidableEq, Repr

/-- A place as it is told behind a message. -/
def Mark.told (m : Mark) : String :=
  if m.line = 0 ∧ m.column = 0 then ""
  else " at line " ++ toString (m.line + 1) ++ " column " ++ toString (m.column + 1)

/-- What can be read of a text. -/
inductive Subject where
  | nextToken
  | simpleKey
  | directive
  | versionDirective
  | tagDirective
  /-- The handle of a tag directive. -/
  | handle
  | anchor
  | alias
  | tag
  | blockScalar
  | quotedScalar
  | plainScalar
  | node
  | blockNode
  | flowNode
  | blockCollection
  | blockMapping
  | flowSequence
  | flowMapping
deriving DecidableEq, Repr

/-- What was being done when an error was met: the characters of something were taken, or its parts put together. -/
inductive Context where
  | scanning (subject : Subject)
  | parsing (subject : Subject)
deriving DecidableEq, Repr

/-- A subject as it is told to the user. -/
def Subject.text : Subject → String
  | nextToken => "for the next token"
  | simpleKey => "a simple key"
  | directive => "a directive"
  | versionDirective => "a %YAML directive"
  | tagDirective => "a %TAG directive"
  | handle => "a tag directive"
  | anchor => "an anchor"
  | .alias => "an alias"
  | tag => "a tag"
  | blockScalar => "a block scalar"
  | quotedScalar => "a quoted scalar"
  | plainScalar => "a plain scalar"
  | node => "a node"
  | blockNode => "a block node"
  | flowNode => "a flow node"
  | blockCollection => "a block collection"
  | blockMapping => "a block mapping"
  | flowSequence => "a flow sequence"
  | flowMapping => "a flow mapping"

/-- A context as it is told to the user. -/
def Context.text : Context → String
  | scanning subject => "while scanning " ++ subject.text
  | parsing subject => "while parsing " ++ subject.text

/-- What can be wrong at a place of a text. -/
inductive Problem where
  | noToken
  | expectedColon
  | entryNotAllowed
  | keyNotAllowed
  | valueNotAllowed
  | unknownDirective
  | expectedDirectiveName
  | unexpectedInName
  | expectedLineEnd
  | expectedDot
  | expectedVersion
  | longVersion
  | expectedSpace
  | expectedSpaceOrLineEnd
  | expectedAnchorName
  | expectedAngle
  | expectedExclamation
  | expectedAddress
  | expectedOctet
  | wrongFirstOctet
  | wrongLaterOctet
  | zeroIndentation
  | tabInIndentation
  | documentMarker
  | endOfText
  | unknownEscape
  | expectedDigits
  | noSuchCharacter
  | unexpectedColon
  | tabBeforeText
  | unknownHandle
  | expectedContent
  | expectedHyphen
  | expectedKey
  | expectedCommaOrBracket
  | expectedCommaOrBrace
  | expectedDocumentStart
  | repeatedVersion
  | repeatedHandle
  | otherVersion
deriving DecidableEq, Repr

/-- A problem as it is told to the user. -/
def Problem.text : Problem → String
  | noToken => "found character that cannot start any token"
  | expectedColon => "could not find expected ':'"
  | entryNotAllowed => "block sequence entries are not allowed in this context"
  | keyNotAllowed => "mapping keys are not allowed in this context"
  | valueNotAllowed => "mapping values are not allowed in this context"
  | unknownDirective => "found unknown directive name"
  | expectedDirectiveName => "could not find expected directive name"
  | unexpectedInName => "found unexpected non-alphabetical character"
  | expectedLineEnd => "did not find expected comment or line break"
  | expectedDot => "did not find expected digit or '.' character"
  | expectedVersion => "did not find expected version number"
  | longVersion => "found extremely long version number"
  | expectedSpace => "did not find expected whitespace"
  | expectedSpaceOrLineEnd => "did not find expected whitespace or line break"
  | expectedAnchorName => "did not find expected alphabetic or numeric character"
  | expectedAngle => "did not find the expected '>'"
  | expectedExclamation => "did not find expected '!'"
  | expectedAddress => "did not find expected tag URI"
  | expectedOctet => "did not find URI escaped octet"
  | wrongFirstOctet => "found an incorrect leading UTF-8 octet"
  | wrongLaterOctet => "found an incorrect trailing UTF-8 octet"
  | zeroIndentation => "found an indentation indicator equal to 0"
  | tabInIndentation => "found a tab character where an indentation space is expected"
  | documentMarker => "found unexpected document indicator"
  | endOfText => "found unexpected end of stream"
  | unknownEscape => "found unknown escape character"
  | expectedDigits => "did not find expected hexadecimal number"
  | noSuchCharacter => "found invalid Unicode character escape code"
  | unexpectedColon => "found unexpected ':'"
  | tabBeforeText => "found a tab character that violates indentation"
  | unknownHandle => "found undefined tag handle"
  | expectedContent => "did not find expected node content"
  | expectedHyphen => "did not find expected '-' indicator"
  | expectedKey => "did not find expected key"
  | expectedCommaOrBracket => "did not find expected ',' or ']'"
  | expectedCommaOrBrace => "did not find expected ',' or '\x7d'"
  | expectedDocumentStart => "did not find expected <document start>"
  | repeatedVersion => "found duplicate %YAML directive"
  | repeatedHandle => "found duplicate %TAG directive"
  | otherVersion => "found incompatible YAML document"

/-- A place at which a text is ill-formed. -/
structure Flaw where
  problem : Problem
  mark : Mark
  /-- What was being done there, and where the thing in question starts. -/
  context : Option (Context × Mark)
deriving DecidableEq, Repr

/-- A flaw as it is told to the user. The start of what was being read is not told where it is the place itself. -/
def Flaw.message (f : Flaw) : String :=
  f.problem.text ++ f.mark.told ++
    match f.context with
    | none => ""
    | some (context, start) => ", " ++ context.text ++ if start = f.mark then "" else start.told

/-- One step from a node to one that it holds. -/
inductive Step where
  /-- To the value of a key. -/
  | key (text : String)
  /-- To an item, by the number of items before it. -/
  | item (index : Nat)
  /-- To the value of a key that is written as an alias. -/
  | aliased
deriving DecidableEq, Repr

/-- The steps from the whole document to a node, the last one first. -/
abbrev Route := List Step

/-- A route as it is told to the user. -/
def Route.text : Route → String
  | [] => "."
  | .item index :: above => Route.text above ++ "[" ++ toString index ++ "]"
  | .key text :: above => (if above.isEmpty then "" else Route.text above ++ ".") ++ text
  | .aliased :: above => (if above.isEmpty then "" else Route.text above ++ ".") ++ "?"

/-- What a node is where something else is expected. -/
inductive Kind where
  | nothing
  | boolean (value : Bool)
  | whole (value : Int)
  /-- A number with a fraction or an exponent, as it is told. -/
  | fraction (digits : String)
  | string (value : String)
  | sequence
  | mapping
deriving DecidableEq, Repr

/-- A kind as it is told to the user; a whole number beyond 64 bits is told with the width that holds it. -/
def Kind.told : Kind → String
  | nothing => "unit value"
  | boolean value => "boolean `" ++ (if value then "true" else "false") ++ "`"
  | whole value =>
    "integer `" ++ toString value ++ "`"
      ++ (if 18446744073709551616 ≤ value then " as u128" else if value < -9223372036854775808 then " as i128" else "")
  | fraction digits => "floating point `" ++ digits ++ "`"
  | string value => "string " ++ String.ofList (Text.literal value.toList)
  | sequence => "sequence"
  | mapping => "map"

/-- Why a node is not what it should be. -/
inductive Mismatch where
  | kind (found : Kind) (expected : String)
  /-- The text of a scalar does not go with its tag. -/
  | value (found expected : String)
  | repeated (key : String)
deriving DecidableEq, Repr

/-- A mismatch as it is told to the user. -/
def Mismatch.message : Mismatch → String
  | kind found expected => "invalid type: " ++ found.told ++ ", expected " ++ expected
  | value found expected =>
    "invalid value: string " ++ String.ofList (Text.literal found.toList) ++ ", expected " ++ expected
  | repeated key => "duplicate field `" ++ key ++ "`"

/-- Why a text does not give the value that it should. -/
inductive Error where
  /-- There is a control character behind so many bytes. -/
  | control (offset : Nat)
  | illFormed (flaw : Flaw)
  /-- An alias at this place has no anchor before it. -/
  | unknownAnchor (mark : Mark)
  | mismatch (route : Route) (mark : Mark) (cause : Mismatch)
  | severalDocuments
  | noDocument
deriving DecidableEq, Repr

/-- An error as it is told to the user. -/
def Error.message : Error → String
  | control offset =>
    "control characters are not allowed" ++ (if offset = 0 then "" else " at position " ++ toString offset)
  | illFormed flaw => flaw.message
  | unknownAnchor mark => "unknown anchor" ++ mark.told
  | mismatch route mark cause => (if route.isEmpty then "" else route.text ++ ": ") ++ cause.message ++ mark.told
  | severalDocuments => "deserializing from YAML containing more than one document is not supported"
  | noDocument => "EOF while parsing a value"

end SkillLint.Yaml
