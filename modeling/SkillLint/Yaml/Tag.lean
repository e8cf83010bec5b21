import SkillLint.Yaml.Scalar

/-!
# Tags, anchors and directives

A tag is a handle and a suffix, or a whole name in angle brackets. Its characters are those of addresses, and octets of
other characters stand behind percent signs. What it names is a list of octets, which need not make up characters and
which ends before the first octet that is zero. A directive stands on a line of its own: it gives the version of the
language or the meaning of a tag handle.

Each reader is told where the token starts that it reads a part of.
-/

namespace SkillLint.Yaml

/-- The octets of a name, none of which is zero. -/
abbrev TagName := List UInt8

/-- The octets of a text of ASCII characters. -/
def TagName.ofText (s : List Char) : TagName :=
  s.map fun c => UInt8.ofNat c.toNat

/-- The name that octets make up: those before the first zero. -/
def TagName.ofOctets (octets : List UInt8) : TagName :=
  octets.takeWhile (· != 0)

/-- Whether a character may stand in a tag; commas and square brackets may in an address only. -/
def isTagChar (address : Bool) (c : Char) : Bool :=
  isNameChar c || [';', '/', '?', ':', '@', '&', '=', '+', '$', '.', '!', '~', '*', '\'', '(', ')'].contains c
    || (address && (c == ',' || c == '[' || c == ']'))

/-- What a tag belongs to: a directive, or the node that follows it. -/
inductive TagPlace where
  | directive
  | node
deriving DecidableEq, Repr

/-- What is being read where a part of a tag is taken. -/
def TagPlace.subject : TagPlace → Subject
  | directive => .tagDirective
  | node => .tag

/-- The octet that a percent sign and two hexadecimal digits stand for. -/
def readOctet? : List Char → Option UInt8
  | '%' :: high :: low :: _ => do return UInt8.ofNat (16 * (← hexValue? high) + (← hexValue? low))
  | _ => none

/-- The octet at the position. -/
def readOctet (place : TagPlace) (start : Mark) (c : Cursor) : Except Flaw UInt8 :=
  match readOctet? c.rest with
  | some octet => .ok octet
  | none => c.fail .expectedOctet (.parsing place.subject) start

/-- The number of octets of a character that follow its first one. -/
def octetsBehind? (first : UInt8) : Option Nat :=
  if first < 0x80 then some 0
  else if 0xC0 ≤ first && first < 0xE0 then some 1
  else if 0xE0 ≤ first && first < 0xF0 then some 2
  else if 0xF0 ≤ first && first < 0xF8 then some 3
  else none

/-- The `n` octets that continue a character, put before those of `read`, the last one first, and the position behind
them. -/
def readContinuation (place : TagPlace) (start : Mark) :
    Nat → Cursor → List UInt8 → Except Flaw (Cursor × List UInt8)
  | 0, c, read => .ok (c, read)
  | n + 1, c, read =>
    match readOctet place start c with
    | .error flaw => .error flaw
    | .ok octet =>
      if 0x80 ≤ octet && octet < 0xC0 then readContinuation place start n (c.skip 3) (octet :: read)
      else c.fail .wrongLaterOctet (.parsing place.subject) start

/-- The octets of one character at the position, put before those of `read`, the last one first, and the position behind
them. -/
def readEscapedOctets (place : TagPlace) (start : Mark) (c : Cursor) (read : List UInt8) :
    Except Flaw (Cursor × List UInt8) := do
  let first ← readOctet place start c
  match octetsBehind? first with
  | none => c.fail .wrongFirstOctet (.parsing place.subject) start
  | some n => readContinuation place start n (c.skip 3) (first :: read)

/-- The octets of a tag, put before those of `read`, the last one first, and the position behind them. -/
def readTagOctets (place : TagPlace) (address : Bool) (start : Mark) :
    Nat → Cursor → List UInt8 → Except Flaw (Cursor × List UInt8)
  | 0, c, read => .ok (c, read)
  | fuel + 1, c, read =>
    match c.peek with
    | none => .ok (c, read)
    | some d =>
      if d == '%' then
        match readEscapedOctets place start c read with
        | .error flaw => .error flaw
        | .ok (c, read) => readTagOctets place address start fuel c read
      else if isTagChar address d then
        readTagOctets place address start fuel (c.skip 1) (UInt8.ofNat d.toNat :: read)
      else .ok (c, read)

/-- Reads the rest of a tag that starts with `head`, something of which must be written. The exclamation mark in front is
not part of the suffix. -/
def readSuffix (place : TagPlace) (address : Bool) (start : Mark) (fuel : Nat) (head : List Char) (c : Cursor) :
    Except Flaw (Cursor × TagName) := do
  let (c, read) ← readTagOctets place address start fuel c (TagName.ofText (head.drop 1)).reverse
  if head.isEmpty && read.isEmpty then c.fail .expectedAddress (.parsing place.subject) start
  else return (c, TagName.ofOctets read.reverse)

/-- Reads a handle: an exclamation mark, or a name between two. Without the second mark what has been read is no handle,
but may be the start of a tag. -/
def readHandle (place : TagPlace) (start : Mark) (c : Cursor) : Except Flaw (Cursor × List Char) :=
  if c.peek == some '!' then
    let (name, c) := (c.skip 1).takeWhile isNameChar
    if c.peek == some '!' then .ok (c.skip 1, '!' :: (name ++ ['!'])) else .ok (c, '!' :: name)
  else c.fail .expectedExclamation (.scanning (if place = .directive then .handle else .tag)) start

/-- Whether what has been read is a handle with a mark at both ends. -/
def isNamedHandle (handle : List Char) : Bool :=
  2 ≤ handle.length && handle.getLast? == some '!'

/-- Reads a whole name in angle brackets. -/
def readWholeTag (fuel : Nat) (c : Cursor) : Except Flaw (Cursor × List Char × TagName) := do
  let start := c.mark
  let (c, suffix) ← readSuffix .node true start fuel [] (c.skip 2)
  if c.peek == some '>' then return (c.skip 1, [], suffix) else c.fail .expectedAngle (.scanning .tag) start

/-- Reads a handle and a suffix. What is no handle with two marks is the start of a suffix behind the mark alone, and the
mark with nothing behind it is a whole name. -/
def readShortTag (fuel : Nat) (c : Cursor) : Except Flaw (Cursor × List Char × TagName) := do
  let start := c.mark
  let (c, handle) ← readHandle .node start c
  if isNamedHandle handle then
    let (c, suffix) ← readSuffix .node false start fuel [] c
    return (c, handle, suffix)
  else
    let (c, suffix) ← readSuffix .node false start fuel handle c
    return if suffix.isEmpty then (c, [], TagName.ofText ['!']) else (c, ['!'], suffix)

/-- Reads a tag: its handle, which is empty for a whole name, and its suffix. -/
def readTag (fuel : Nat) (flow : Bool) (c : Cursor) : Except Flaw (Cursor × List Char × TagName) := do
  let start := c.mark
  let (c, tag) ← if c.peekAt 1 == some '<' then readWholeTag fuel c else readShortTag fuel c
  if endsToken c.peek || (flow && c.peek == some ',') then return (c, tag)
  else c.fail .expectedSpaceOrLineEnd (.scanning .tag) start

/-- Reads the name of an anchor or an alias behind its indicator. -/
def readAnchor (subject : Subject) (c : Cursor) : Except Flaw (Cursor × List Char) :=
  let start := c.mark
  let (name, c) := (c.skip 1).takeWhile isNameChar
  let closes := endsToken c.peek || c.peek.any fun d => ['?', ':', ',', ']', '}', '%', '@', '`'].contains d
  if name.isEmpty || !closes then c.fail .expectedAnchorName (.scanning subject) start else .ok (c, name)

/-- What a directive says. -/
inductive Directive where
  | version (major minor : Nat)
  /-- What tags with the handle start with. -/
  | tag (handle : List Char) (start : TagName)
deriving DecidableEq, Repr

/-- Reads a number of one to nine digits. -/
def readVersionNumber (start : Mark) (c : Cursor) : Except Flaw (Cursor × Nat) :=
  let (digits, after) := c.takeWhile Char.isDigit
  if digits.isEmpty then c.fail .expectedVersion (.scanning .versionDirective) start
  else if 9 < digits.length then (c.skip 9).fail .longVersion (.scanning .versionDirective) start
  else .ok (after, digits.foldl (fun n d => 10 * n + (d.toNat - 48)) 0)

/-- Reads a version: two numbers with a dot between them. -/
def readVersion (start : Mark) (c : Cursor) : Except Flaw (Cursor × Directive) := do
  let (c, major) ← readVersionNumber start (c.skipWhile isSpace)
  if c.peek == some '.' then
    let (c, minor) ← readVersionNumber start (c.skip 1)
    return (c, .version major minor)
  else c.fail .expectedDot (.scanning .versionDirective) start

/-- Reads a handle and what it stands for. -/
def readTagDirective (fuel : Nat) (start : Mark) (c : Cursor) : Except Flaw (Cursor × Directive) := do
  let (c, handle) ← readHandle .directive start (c.skipWhile isSpace)
  if handle != ['!'] && !isNamedHandle handle then c.fail .expectedExclamation (.parsing .handle) start
  else if !c.peek.any isSpace then c.fail .expectedSpace (.scanning .tagDirective) start
  else
    let (c, front) ← readSuffix .directive true start fuel [] (c.skipWhile isSpace)
    if endsToken c.peek then return (c, .tag handle front)
    else c.fail .expectedSpaceOrLineEnd (.scanning .tagDirective) start

/-- Reads the name of a directive and what it says. -/
def readDirectiveBody (fuel : Nat) (start : Mark) (c : Cursor) : Except Flaw (Cursor × Directive) :=
  let (name, c) := c.takeWhile isNameChar
  if name.isEmpty then c.fail .expectedDirectiveName (.scanning .directive) start
  else if !endsToken c.peek then c.fail .unexpectedInName (.scanning .directive) start
  else if name == "YAML".toList then readVersion start c
  else if name == "TAG".toList then readTagDirective fuel start c
  else c.fail .unknownDirective (.scanning .directive) start

/-- Reads a directive from its percent sign to the end of its line. -/
def readDirective (fuel : Nat) (c : Cursor) : Except Flaw (Cursor × Directive) := do
  let start := c.mark
  let (c, directive) ← readDirectiveBody fuel start (c.skip 1)
  return (← c.restOfLine (.scanning .directive) start, directive)

end SkillLint.Yaml
