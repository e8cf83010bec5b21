import SkillLint.Yaml.Tag

/-!
# Tokens

The tokens of a YAML text with their places. Block collections have no brackets of their own, so tokens for their starts
and ends are made from the indentation. Whether a scalar is a key is known only when a colon follows: each place where a
key could start is remembered, and when the colon comes a token is put in at that place. Such a place is given up at the
end of its line and 1024 bytes further on; where only a key can stand, that is an error.

A text that is ill-formed has the tokens before the flaw. Those behind a place where a key could still start are not
among them, for it is not known what they are.
-/

namespace SkillLint.Yaml

/-- One token. -/
inductive Token where
  | directive (directive : Directive)
  | documentStart
  | documentEnd
  | blockSequenceStart
  | blockMappingStart
  | blockEnd
  | flowSequenceStart
  | flowSequenceEnd
  | flowMappingStart
  | flowMappingEnd
  | blockEntry
  | flowEntry
  | key
  | value
  | alias (name : List Char)
  | anchor (name : List Char)
  | tag (handle : List Char) (suffix : TagName)
  | scalar (style : ScalarStyle) (text : List Char)
deriving DecidableEq, Repr

/-- The tokens of a text from some place on. -/
inductive Tokens where
  /-- No more can be read. -/
  | flaw (cause : Flaw)
  /-- The end of the text. -/
  | done (mark : Mark)
  | next (token : Token) (mark : Mark) (rest : Tokens)
deriving Repr

namespace Tokens

/-- The next token, if there is one. -/
def head? : Tokens → Option Token
  | next token _ _ => some token
  | _ => none

/-- The number of tokens. -/
def length : Tokens → Nat
  | next _ _ rest => rest.length + 1
  | _ => 0

/-- The place of the next token or of the end, if nothing is wrong there. -/
def mark : Tokens → Except Flaw Mark
  | flaw cause => .error cause
  | done place => .ok place
  | next _ place _ => .ok place

/-- The flaw of a text in which the next token cannot stand where it does. -/
def unexpected (tokens : Tokens) (problem : Problem) (context : Option (Context × Mark)) : Flaw :=
  match tokens.mark with
  | .error cause => cause
  | .ok place => ⟨problem, place, context⟩

/-- Tokens with their places, the last one first, in front of others. -/
def prepend (rest : Tokens) (reversed : List (Token × Mark)) : Tokens :=
  reversed.foldl (fun rest (token, mark) => next token mark rest) rest

end Tokens

/-- A place where a key could start. -/
structure KeyPlace where
  /-- The number of flow collections around the place. -/
  depth : Nat
  /-- Whether only a key can stand there. -/
  required : Bool
  /-- The number of tokens before the place. -/
  tokens : Nat
  mark : Mark
  /-- The number of bytes before the place. -/
  offset : Nat
deriving Repr

/-- What has been read of a text. -/
structure Lexer where
  cursor : Cursor
  /-- The tokens with their places, the last one first. -/
  tokens : List (Token × Mark) := []
  /-- The number of tokens. -/
  count : Nat := 0
  /-- The column of the innermost block collection, and minus one outside all of them. -/
  indent : Int := -1
  /-- The columns of the collections around it. -/
  outer : List Int := []
  /-- Whether a key may start at the position. -/
  keyAllowed : Bool := true
  /-- The number of flow collections around the position. -/
  depth : Nat := 0
  /-- Where a key could start that is not yet decided: the last place first, and at most one in each flow collection and
  one outside all of them. -/
  places : List KeyPlace := []

namespace Lexer

/-- Whether the position is in a flow collection. -/
def inFlow (l : Lexer) : Bool :=
  0 < l.depth

/-- The lexer behind a token that goes from the position to another one. -/
def push (l : Lexer) (token : Token) (after : Cursor) : Lexer :=
  { l with tokens := (token, l.cursor.mark) :: l.tokens, count := l.count + 1, cursor := after }

/-- The lexer with one more token before token number `place`. -/
def insert (l : Lexer) (place : Nat) (token : Token) (mark : Mark) : Lexer :=
  let (later, earlier) := l.tokens.splitAt (l.count - place)
  { l with tokens := later ++ (token, mark) :: earlier, count := l.count + 1 }

/-- A flaw at the position, where something stands that may not stand there. -/
def refuse (l : Lexer) (problem : Problem) : Except Flaw Lexer :=
  .error ⟨problem, l.cursor.mark, none⟩

/-- The position of the next token, behind spaces, comments and line ends. A tab counts as a space where no key may
start and in flow collections. A byte order mark at the start of a line is passed over, but it takes a column. -/
def toNextToken : Nat → Lexer → Lexer
  | 0, l => l
  | fuel + 1, l =>
    let c := if l.cursor.column == 0 && l.cursor.peek == some '\uFEFF' then l.cursor.skip 1 else l.cursor
    let tabs := l.inFlow || !l.keyAllowed
    let c := (c.skipWhile fun d => d == ' ' || (tabs && d == '\t')).skipComment
    if c.peek.any isBreak then
      toNextToken fuel { l with cursor := c.newLine, keyAllowed := !l.inFlow || l.keyAllowed }
    else { l with cursor := c }

/-- The flaw of a place where a key had to stand, and the position shows that none does. -/
def missingColon (l : Lexer) (p : KeyPlace) : Except Flaw Lexer :=
  l.cursor.fail .expectedColon (.scanning .simpleKey) p.mark

/-- Whether a place is too far behind the position for a key. -/
def isStale (c : Cursor) (p : KeyPlace) : Bool :=
  p.mark.line < c.line || p.offset + 1024 < c.offset

/-- The lexer without the places that are too far behind, unless a key had to stand at one of them. -/
def dropStale (l : Lexer) : Except Flaw Lexer :=
  match l.places.find? fun p => p.required && isStale l.cursor p with
  | some p => l.missingColon p
  | none => .ok { l with places := l.places.filter fun p => !isStale l.cursor p }

/-- The place in the innermost collection, and the places around it. -/
def innermost? (l : Lexer) : Option (KeyPlace × List KeyPlace) :=
  match l.places with
  | p :: more => if p.depth = l.depth then some (p, more) else none
  | [] => none

/-- The lexer without the place in the innermost collection, unless a key had to stand there. -/
def dropPlace (l : Lexer) : Except Flaw Lexer :=
  match l.innermost? with
  | some (p, more) => if p.required then l.missingColon p else .ok { l with places := more }
  | none => .ok l

/-- The lexer that remembers the position as a place where a key could start, if one may. -/
def markPlace (l : Lexer) : Except Flaw Lexer :=
  if !l.keyAllowed then .ok l
  else
    let c := l.cursor
    let place : KeyPlace := ⟨l.depth, !l.inFlow && l.indent == (c.column : Int), l.count, c.mark, c.offset⟩
    l.dropPlace.map fun l => { l with places := place :: l.places }

/-- Opens a block collection at a place, if it is deeper than the one around it, with a token before token number
`number`. -/
def openBlock (l : Lexer) (mark : Mark) (number : Nat) (token : Token) : Lexer :=
  if !l.inFlow && l.indent < (mark.column : Int) then
    { l.insert number token mark with outer := l.indent :: l.outer, indent := mark.column }
  else l

/-- Closes the block collections that are deeper than a column: the innermost one, and then those in the list. -/
def closeDeeper (column : Int) : List Int → Lexer → Lexer
  | [], l => l
  | next :: more, l =>
    if column < l.indent then closeDeeper column more { l.push .blockEnd l.cursor with indent := next, outer := more }
    else l

/-- Closes the block collections that are deeper than a column. -/
def closeBlocks (l : Lexer) (column : Int) : Lexer :=
  if l.inFlow then l else closeDeeper column l.outer l

/-- Reads a directive. -/
def readDirective (fuel : Nat) (l : Lexer) : Except Flaw Lexer := do
  let l ← (l.closeBlocks (-1)).dropPlace
  let (c, directive) ← Yaml.readDirective fuel l.cursor
  return { l with keyAllowed := false }.push (.directive directive) c

/-- Reads a marker for the start or the end of a document. -/
def readMarker (token : Token) (l : Lexer) : Except Flaw Lexer := do
  let l ← (l.closeBlocks (-1)).dropPlace
  return { l with keyAllowed := false }.push token (l.cursor.skip 3)

/-- Reads the start of a flow collection. -/
def readFlowStart (token : Token) (l : Lexer) : Except Flaw Lexer := do
  let l ← l.markPlace
  return { l with depth := l.depth + 1, keyAllowed := true }.push token (l.cursor.skip 1)

/-- Reads the end of a flow collection. -/
def readFlowEnd (token : Token) (l : Lexer) : Except Flaw Lexer := do
  let l ← l.dropPlace
  return { l with depth := l.depth - 1, keyAllowed := false }.push token (l.cursor.skip 1)

/-- Reads a comma of a flow collection. -/
def readFlowEntry (l : Lexer) : Except Flaw Lexer := do
  let l ← l.dropPlace
  return { l with keyAllowed := true }.push .flowEntry (l.cursor.skip 1)

/-- Reads the hyphen before an item of a block sequence. -/
def readBlockEntry (l : Lexer) : Except Flaw Lexer := do
  if !l.inFlow && !l.keyAllowed then l.refuse .entryNotAllowed
  else
    let l ← (l.openBlock l.cursor.mark l.count .blockSequenceStart).dropPlace
    return { l with keyAllowed := true }.push .blockEntry (l.cursor.skip 1)

/-- Reads the question mark before a key. -/
def readKey (l : Lexer) : Except Flaw Lexer := do
  if !l.inFlow && !l.keyAllowed then l.refuse .keyNotAllowed
  else
    let l ← (l.openBlock l.cursor.mark l.count .blockMappingStart).dropPlace
    return { l with keyAllowed := !l.inFlow }.push .key (l.cursor.skip 1)

/-- Reads the colon before a value. Where a key could start before it, one does. -/
def readValue (l : Lexer) : Except Flaw Lexer :=
  match l.innermost? with
  | some (p, more) =>
    let l := { l with places := more, keyAllowed := false }
    let l := (l.insert p.tokens .key p.mark).openBlock p.mark p.tokens .blockMappingStart
    .ok (l.push .value (l.cursor.skip 1))
  | none =>
    if !l.inFlow && !l.keyAllowed then l.refuse .valueNotAllowed
    else
      let l := l.openBlock l.cursor.mark l.count .blockMappingStart
      .ok ({ l with keyAllowed := !l.inFlow }.push .value (l.cursor.skip 1))

/-- Reads an alias. -/
def readAlias (l : Lexer) : Except Flaw Lexer := do
  let l ← l.markPlace
  let (c, name) ← Yaml.readAnchor .alias l.cursor
  return { l with keyAllowed := false }.push (.alias name) c

/-- Reads an anchor. -/
def readAnchor (l : Lexer) : Except Flaw Lexer := do
  let l ← l.markPlace
  let (c, name) ← Yaml.readAnchor .anchor l.cursor
  return { l with keyAllowed := false }.push (.anchor name) c

/-- Reads a tag. -/
def readTag (fuel : Nat) (l : Lexer) : Except Flaw Lexer := do
  let l ← l.markPlace
  let (c, handle, suffix) ← Yaml.readTag fuel l.inFlow l.cursor
  return { l with keyAllowed := false }.push (.tag handle suffix) c

/-- Reads a block scalar. -/
def readBlock (fuel : Nat) (style : ScalarStyle) (l : Lexer) : Except Flaw Lexer := do
  let l ← l.dropPlace
  let (c, text) ← Yaml.readBlock fuel (style == .literal) l.indent l.cursor
  return { l with keyAllowed := true }.push (.scalar style text) c

/-- Reads a quoted scalar. -/
def readQuoted (fuel : Nat) (style : ScalarStyle) (l : Lexer) : Except Flaw Lexer := do
  let l ← l.markPlace
  let (c, text) ← Yaml.readQuoted fuel (style == .doubleQuoted) l.cursor
  return { l with keyAllowed := false }.push (.scalar style text) c

/-- Reads a plain scalar; behind one that ends with a line a key may start. -/
def readPlain (fuel : Nat) (l : Lexer) : Except Flaw Lexer := do
  let l ← l.markPlace
  let (c, text, ended) ← Yaml.readPlain fuel l.inFlow (l.indent + 1).toNat l.cursor
  return { l with keyAllowed := ended }.push (.scalar .plain text) c

/-- Whether a plain scalar can start with a character, given the one behind it. -/
def startsPlain (flow : Bool) (c : Char) (next : Option Char) : Bool :=
  let indicator := ['-', '?', ':', ',', '[', ']', '{', '}', '#', '&', '*', '!', '|', '>', '\'', '"', '%', '@', '`']
  (!isSpace c && !isBreak c && !indicator.contains c) || (c == '-' && !next.any isSpace)
    || (!flow && (c == '?' || c == ':') && !endsToken next)

/-- Reads the token that starts with a character, given the one behind it. -/
def readAt (fuel : Nat) (l : Lexer) (c : Char) (next : Option Char) : Except Flaw Lexer :=
  if l.cursor.column == 0 && c == '%' then l.readDirective fuel
  else if l.cursor.atMarker '-' then l.readMarker .documentStart
  else if l.cursor.atMarker '.' then l.readMarker .documentEnd
  else if c == '[' then l.readFlowStart .flowSequenceStart
  else if c == '{' then l.readFlowStart .flowMappingStart
  else if c == ']' then l.readFlowEnd .flowSequenceEnd
  else if c == '}' then l.readFlowEnd .flowMappingEnd
  else if c == ',' then l.readFlowEntry
  else if c == '-' && endsToken next then l.readBlockEntry
  else if c == '?' && (l.inFlow || endsToken next) then l.readKey
  else if c == ':' && (l.inFlow || endsToken next) then l.readValue
  else if c == '*' then l.readAlias
  else if c == '&' then l.readAnchor
  else if c == '!' then l.readTag fuel
  else if c == '|' && !l.inFlow then l.readBlock fuel .literal
  else if c == '>' && !l.inFlow then l.readBlock fuel .folded
  else if c == '\'' then l.readQuoted fuel .singleQuoted
  else if c == '"' then l.readQuoted fuel .doubleQuoted
  else if startsPlain l.inFlow c next then l.readPlain fuel
  else l.cursor.fail .noToken (.scanning .nextToken) l.cursor.mark

/-- Reads the end of the text, which ends the last line. -/
def readEnd (l : Lexer) : Except Flaw Lexer :=
  let c := l.cursor
  let l := { l with cursor := if c.column = 0 then c else { c with line := c.line + 1, column := 0 } }
  (l.closeBlocks (-1)).dropPlace

/-- Reads the next token, or the end of the text, and tells which. -/
def step (fuel : Nat) (l : Lexer) : Except Flaw (Lexer × Bool) := do
  let l ← (toNextToken fuel l).dropStale
  let l := l.closeBlocks l.cursor.column
  match l.cursor.peek with
  | none => return (← (← l.readEnd).dropStale, false)
  | some c => return (← (← l.readAt fuel c (l.cursor.peekAt 1)).dropStale, true)

/-- The number of tokens before all places that are not yet decided. -/
def settled (l : Lexer) : Nat :=
  l.places.foldl (fun n p => min n p.tokens) l.count

/-- Reads all tokens, of which there are less than `fuel`. -/
def readAll : Nat → Lexer → Tokens
  | 0, l => (Tokens.done l.cursor.mark).prepend l.tokens
  | fuel + 1, l =>
    match l.step fuel with
    | .error flaw => (Tokens.flaw flaw).prepend (l.tokens.drop (l.count - l.settled))
    | .ok (l, true) => readAll fuel l
    | .ok (l, false) => (Tokens.done l.cursor.mark).prepend l.tokens

end Lexer

/-- The tokens of a text. -/
def Tokens.ofText (s : List Char) : Tokens :=
  Lexer.readAll (s.length + 2) { cursor := { rest := s } }

end SkillLint.Yaml
