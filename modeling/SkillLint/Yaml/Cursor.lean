import SkillLint.Yaml.Error

/-!
# Reading positions

A YAML text is read with a cursor, which knows the characters that are left and the line and the column that it stands
at. Lines end at a line feed, a carriage return or both, and at three separators outside ASCII.
-/

namespace SkillLint.Yaml

/-- The space and the tab. -/
def isSpace (c : Char) : Bool :=
  c == ' ' || c == '\t'

/-- The characters that end a line. -/
def isBreak (c : Char) : Bool :=
  c == '\n' || c == '\r' || c == '\u0085' || c == '\u2028' || c == '\u2029'

/-- Whether there is no character, or one that separates tokens. -/
def endsToken : Option Char → Bool
  | none => true
  | some c => isSpace c || isBreak c

/-- A line end as it counts in a scalar: the two separators for lines and paragraphs stay, all others are line feeds. -/
def breakChar (c : Char) : Char :=
  if c == '\u2028' || c == '\u2029' then c else '\n'

/-- The characters of names of anchors, tag handles and directives. -/
def isNameChar (c : Char) : Bool :=
  c.isAlphanum || c == '_' || c == '-'

/-- The characters that a YAML text may have. -/
def isPrintable (c : Char) : Bool :=
  let n := c.toNat
  n == 0x9 || n == 0xA || n == 0xD || (0x20 ≤ n && n ≤ 0x7E) || n == 0x85 || (0xA0 ≤ n && n ≤ 0xD7FF)
    || (0xE000 ≤ n && n ≤ 0xFFFD) || (0x10000 ≤ n && n ≤ 0x10FFFF)

/-- A position in a text. -/
structure Cursor where
  /-- The characters from the position on. -/
  rest : List Char
  /-- The number of lines before the position. -/
  line : Nat := 0
  /-- The number of characters before the position on its line. -/
  column : Nat := 0
  /-- The number of bytes before the position. -/
  offset : Nat := 0
deriving Repr

namespace Cursor

/-- The place of the position. -/
def mark (c : Cursor) : Mark :=
  ⟨c.line, c.column⟩

/-- A flaw at the position, met in reading what starts at `start`. -/
def fail {α : Type} (c : Cursor) (problem : Problem) (context : Context) (start : Mark) : Except Flaw α :=
  .error ⟨problem, c.mark, some (context, start)⟩

/-- The character at the position, if the text does not end there. -/
def peek (c : Cursor) : Option Char :=
  c.rest.head?

/-- The character `n` places behind the position. -/
def peekAt (c : Cursor) (n : Nat) : Option Char :=
  c.rest[n]?

/-- The number of bytes that characters take. -/
def byteCount (s : List Char) : Nat :=
  s.foldl (fun n c => n + c.utf8Size) 0

/-- The position `n` characters further on the same line. -/
def skip (c : Cursor) (n : Nat) : Cursor :=
  { c with rest := c.rest.drop n, column := c.column + n, offset := c.offset + byteCount (c.rest.take n) }

/-- The position behind the characters that satisfy `p`, none of which ends a line. -/
def skipWhile (c : Cursor) (p : Char → Bool) : Cursor :=
  c.skip (c.rest.takeWhile p).length

/-- The characters that satisfy `p`, and the position behind them. -/
def takeWhile (c : Cursor) (p : Char → Bool) : List Char × Cursor :=
  (c.rest.takeWhile p, c.skipWhile p)

/-- The position behind a line end; a carriage return and a line feed are one. -/
def newLine (c : Cursor) : Cursor :=
  let size := if c.rest.head? = some '\r' ∧ c.rest[1]? = some '\n' then 2 else 1
  { rest := c.rest.drop size, line := c.line + 1, column := 0, offset := c.offset + byteCount (c.rest.take size) }

/-- The position behind a comment, if one starts here. -/
def skipComment (c : Cursor) : Cursor :=
  if c.peek = some '#' then c.skipWhile fun d => !isBreak d else c

/-- Whether a line starts here with three characters of the given kind and nothing glued to them. -/
def atMarker (c : Cursor) (mark : Char) : Bool :=
  c.column == 0 && c.rest.take 3 == [mark, mark, mark] && endsToken (c.peekAt 3)

/-- Whether a marker for the start or the end of a document stands here. -/
def atDocumentMarker (c : Cursor) : Bool :=
  c.atMarker '-' || c.atMarker '.'

/-- The position behind the rest of a line that may hold spaces and a comment only. -/
def restOfLine (c : Cursor) (context : Context) (start : Mark) : Except Flaw Cursor :=
  let c := (c.skipWhile isSpace).skipComment
  match c.peek with
  | none => .ok c
  | some d => if isBreak d then .ok c.newLine else c.fail .expectedLineEnd context start

end Cursor

end SkillLint.Yaml
