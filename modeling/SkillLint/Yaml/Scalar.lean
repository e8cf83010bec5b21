import SkillLint.Yaml.Cursor

/-!
# Scalars

A scalar is written plainly, in single or double quotes, or as a literal or folded block. In all forms but the literal
block a single line end inside the text counts as a space, and of several line ends in a row the first is dropped. A
block keeps the line ends at its end as its header says.

The amount of fuel that the readers here are given is at least the number of characters that are left, which no loop
exceeds.
-/

namespace SkillLint.Yaml

/-- The forms in which a scalar can be written. -/
inductive ScalarStyle where
  | plain
  | singleQuoted
  | doubleQuoted
  | literal
  | folded
deriving DecidableEq, Repr

/-- What separates two words of a scalar: the spaces on one line, or line ends. -/
structure Gap where
  spaces : List Char
  breaks : List Char

/-- The text that a gap stands for: a line end alone is a space, and several line feeds are all but the first. -/
def Gap.text (gap : Gap) : List Char :=
  match gap.breaks with
  | [] => gap.spaces
  | ['\n'] => [' ']
  | '\n' :: more => more
  | breaks => breaks

/-- Reads line ends and the spaces and tabs behind each of them; the last line end comes first. A tab is refused left of
the column `limit`. -/
def readBreaks (limit : Nat) (start : Mark) : Nat → Cursor → List Char → Except Flaw (Cursor × List Char)
  | 0, c, breaks => .ok (c, breaks)
  | fuel + 1, c, breaks =>
    match c.peek with
    | none => .ok (c, breaks)
    | some d =>
      if isBreak d then
        let c := c.newLine
        let tab := c.skipWhile (· == ' ')
        if tab.peek == some '\t' && tab.column < limit then tab.fail .tabBeforeText (.scanning .plainScalar) start
        else readBreaks limit start fuel (c.skipWhile isSpace) (breakChar d :: breaks)
      else .ok (c, breaks)

/-- Reads spaces, tabs and line ends. -/
def readGap (limit : Nat) (start : Mark) (fuel : Nat) (c : Cursor) : Except Flaw (Cursor × Gap) := do
  let (spaces, c) := c.takeWhile isSpace
  let (c, breaks) ← readBreaks limit start fuel c []
  return (c, ⟨spaces, breaks.reverse⟩)

/-- The characters that open, separate and close flow collections. -/
def isFlowIndicator (c : Char) : Bool :=
  c == ',' || c == '[' || c == ']' || c == '{' || c == '}'

/-- The part of a plain scalar up to the next space, line end or indicator, and whether what stops it may stand there: in
a flow collection a colon may not stand before an indicator. -/
def plainWord (flow : Bool) : List Char → List Char × Bool
  | [] => ([], true)
  | c :: rest =>
    if isSpace c || isBreak c then ([], true)
    else if flow && c == ':' && rest.head?.any (fun d => isFlowIndicator d || d == '?') then ([], false)
    else if (c == ':' && endsToken rest.head?) || (flow && isFlowIndicator c) then ([], true)
    else
      let (word, fine) := plainWord flow rest
      (c :: word, fine)

/-- What has been read of a plain scalar. -/
structure PlainText where
  /-- The parts of the text, the last one first. -/
  parts : List (List Char) := []
  /-- The gap behind them. -/
  gap : Gap := ⟨[], []⟩

/-- Reads a plain scalar of which something has been read. -/
def readPlainFrom (flow : Bool) (limit : Nat) (start : Mark) :
    Nat → Cursor → PlainText → Except Flaw (Cursor × PlainText)
  | 0, c, read => .ok (c, read)
  | fuel + 1, c, read =>
    if c.atDocumentMarker || c.peek == some '#' then .ok (c, read)
    else
      let (word, fine) := plainWord flow c.rest
      let c := c.skip word.length
      if !fine then c.fail .unexpectedColon (.scanning .plainScalar) start
      else
        let read : PlainText :=
          if word.isEmpty then read else { parts := word :: read.gap.text :: read.parts }
        if !c.peek.any (fun d => isSpace d || isBreak d) then .ok (c, read)
        else
          match readGap limit start fuel c with
          | .error flaw => .error flaw
          | .ok (c, gap) =>
            let read := { read with gap := gap }
            if !flow && c.column < limit then .ok (c, read) else readPlainFrom flow limit start fuel c read

/-- Reads a plain scalar whose lines must not start left of the column `limit`, unless it is in a flow collection. Tells
the position behind it and the gap that follows it, its text, and whether the gap has a line end. -/
def readPlain (fuel : Nat) (flow : Bool) (limit : Nat) (c : Cursor) : Except Flaw (Cursor × List Char × Bool) := do
  let (c, read) ← readPlainFrom flow limit c.mark fuel c {}
  return (c, read.parts.reverse.flatten, !read.gap.breaks.isEmpty)

/-- The character that a letter stands for behind a backslash. -/
def escapedChar? (c : Char) : Option Char :=
  match c with
  | '0' => some '\x00'
  | 'a' => some '\x07'
  | 'b' => some '\x08'
  | 't' => some '\t'
  | '\t' => some '\t'
  | 'n' => some '\n'
  | 'v' => some '\x0b'
  | 'f' => some '\x0c'
  | 'r' => some '\r'
  | 'e' => some '\x1b'
  | ' ' => some ' '
  | '"' => some '"'
  | '/' => some '/'
  | '\\' => some '\\'
  | 'N' => some '\u0085'
  | '_' => some '\u00a0'
  | 'L' => some '\u2028'
  | 'P' => some '\u2029'
  | _ => none

/-- The number of hexadecimal digits behind a letter that stands for a code point. -/
def codeLength? (c : Char) : Option Nat :=
  match c with
  | 'x' => some 2
  | 'u' => some 4
  | 'U' => some 8
  | _ => none

/-- The value of a hexadecimal digit. -/
def hexValue? (c : Char) : Option Nat :=
  if c.isDigit then some (c.toNat - 48)
  else if 'a' ≤ c ∧ c ≤ 'f' then some (c.toNat - 87)
  else if 'A' ≤ c ∧ c ≤ 'F' then some (c.toNat - 55)
  else none

/-- The number that some hexadecimal digits stand for. -/
def hexNumber? (digits : List Char) : Option Nat :=
  digits.foldlM (fun n d => (hexValue? d).map fun v => 16 * n + v) 0

/-- The character with a code point, if there is one. -/
def charOfCode? (n : Nat) : Option Char :=
  if n < 0xD800 ∨ (0xDFFF < n ∧ n ≤ 0x10FFFF) then some (Char.ofNat n) else none

/-- The character that a code of some length at the position stands for. -/
def readCode (size : Nat) (start : Mark) (c : Cursor) : Except Flaw Char :=
  let digits := c.rest.take size
  match if digits.length < size then none else hexNumber? digits with
  | none => c.fail .expectedDigits (.parsing .quotedScalar) start
  | some n =>
    match charOfCode? n with
    | none => c.fail .noSuchCharacter (.parsing .quotedScalar) start
    | some d => .ok d

/-- The character that an escape sequence at the position stands for, and the position behind it. -/
def readEscape (start : Mark) (c : Cursor) : Except Flaw (Char × Cursor) :=
  match c.peekAt 1 with
  | none => c.fail .unknownEscape (.parsing .quotedScalar) start
  | some letter =>
    match escapedChar? letter with
    | some d => .ok (d, c.skip 2)
    | none =>
      match codeLength? letter with
      | none => c.fail .unknownEscape (.parsing .quotedScalar) start
      | some size => (readCode size start (c.skip 2)).map fun d => (d, (c.skip 2).skip size)

/-- Reads the part of a quoted scalar up to the next space, line end or closing quote. Its characters are put before those
of `text`, the last one first. Tells whether it ends in an escaped line end. -/
def readQuotedWord (double : Bool) (start : Mark) :
    Nat → Cursor → List Char → Except Flaw (Cursor × List Char × Bool)
  | 0, c, text => .ok (c, text, false)
  | fuel + 1, c, text =>
    match c.rest with
    | [] => .ok (c, text, false)
    | d :: rest =>
      if isSpace d || isBreak d then .ok (c, text, false)
      else if double then
        if d == '"' then .ok (c, text, false)
        else if d == '\\' then
          if rest.head?.any isBreak then .ok ((c.skip 1).newLine, text, true)
          else
            match readEscape start c with
            | .error flaw => .error flaw
            | .ok (e, c) => readQuotedWord double start fuel c (e :: text)
        else readQuotedWord double start fuel (c.skip 1) (d :: text)
      else if d == '\'' then
        if rest.head? == some '\'' then readQuotedWord double start fuel (c.skip 2) ('\'' :: text)
        else .ok (c, text, false)
      else readQuotedWord double start fuel (c.skip 1) (d :: text)

/-- Reads a quoted scalar behind its opening quote; `text` is what has been read of it, the last character first. -/
def readQuotedFrom (double : Bool) (start : Mark) : Nat → Cursor → List Char → Except Flaw (Cursor × List Char)
  | 0, c, _ => c.fail .endOfText (.scanning .quotedScalar) start
  | fuel + 1, c, text =>
    if c.atDocumentMarker then c.fail .documentMarker (.scanning .quotedScalar) start
    else if c.rest.isEmpty then c.fail .endOfText (.scanning .quotedScalar) start
    else
      match readQuotedWord double start fuel c text with
      | .error flaw => .error flaw
      | .ok (c, text, escaped) =>
        if c.peek == some (if double then '"' else '\'') then .ok (c.skip 1, text.reverse)
        else
          match readGap 0 start fuel c with
          | .error flaw => .error flaw
          | .ok (c, gap) =>
            readQuotedFrom double start fuel c ((if escaped then gap.breaks else gap.text).reverse ++ text)

/-- Reads a quoted scalar from its opening quote on. -/
def readQuoted (fuel : Nat) (double : Bool) (c : Cursor) : Except Flaw (Cursor × List Char) :=
  readQuotedFrom double c.mark fuel (c.skip 1) []

/-- What becomes of the line ends at the end of a block. -/
inductive Chomping where
  /-- All are dropped. -/
  | strip
  /-- The first one is kept. -/
  | clip
  /-- All are kept. -/
  | keep
deriving DecidableEq, Repr

/-- The chomping that an indicator asks for. -/
def Chomping.ofChar? (c : Char) : Option Chomping :=
  if c = '+' then some .keep else if c = '-' then some .strip else none

/-- The indentation that a digit at the position asks for, and the position behind it; zero, which is none, where there
is no digit. The digit zero is refused. -/
def readIncrement (start : Mark) (c : Cursor) : Except Flaw (Cursor × Nat) :=
  match c.peek.filter Char.isDigit with
  | none => .ok (c, 0)
  | some '0' => c.fail .zeroIndentation (.scanning .blockScalar) start
  | some d => .ok (c.skip 1, d.toNat - 48)

/-- The chomping and the indentation that the header of a block asks for, in either order, and the position behind
them. -/
def readBlockHeader (start : Mark) (c : Cursor) : Except Flaw (Cursor × Chomping × Nat) :=
  match c.peek.bind Chomping.ofChar? with
  | some chomping => (readIncrement start (c.skip 1)).map fun (c, increment) => (c, chomping, increment)
  | none =>
    (readIncrement start c).map fun (c, increment) =>
      match if increment = 0 then none else c.peek.bind Chomping.ofChar? with
      | some chomping => (c.skip 1, chomping, increment)
      | none => (c, .clip, increment)

/-- Reads the indentation of the next line of a block and the empty lines before it; the last line end comes first. While
the indentation of the block is not known (zero), all spaces count; `widest` is the most that any line had. A tab in the
indentation is refused. -/
def readIndentation (indent : Nat) (start : Mark) :
    Nat → Cursor → List Char → Nat → Except Flaw (Cursor × List Char × Nat)
  | 0, c, breaks, widest => .ok (c, breaks, widest)
  | fuel + 1, c, breaks, widest =>
    let spaces := (c.rest.takeWhile (· == ' ')).length
    let c := c.skip (if indent = 0 then spaces else min spaces (indent - c.column))
    let widest := max widest c.column
    match c.peek with
    | none => .ok (c, breaks, widest)
    | some d =>
      if (indent = 0 || c.column < indent) && d == '\t' then
        c.fail .tabInIndentation (.scanning .blockScalar) start
      else if isBreak d then readIndentation indent start fuel c.newLine (breakChar d :: breaks) widest
      else .ok (c, breaks, widest)

/-- The indentation of a block: as it was asked for, or as wide as its first lines, but greater than that of the
collection around it. -/
def blockIndent (asked : Nat) (around : Int) (widest : Nat) : Nat :=
  if asked = 0 then max (max widest (around + 1).toNat) 1 else asked

/-- What has been read of a block. -/
structure BlockText where
  /-- The parts of the text, the last one first. -/
  parts : List (List Char) := []
  /-- The line end behind them. -/
  leading : List Char := []
  /-- The line ends of the empty lines behind that. -/
  trailing : List Char
  /-- Whether the last line starts with a space or a tab. -/
  blank : Bool := false

/-- The line ends before the next line of a block as they count: in a folded block a line feed between two lines that do
not start with blanks is a space, and nothing where empty lines follow it. -/
def BlockText.joint (read : BlockText) (literal startsBlank : Bool) : List Char :=
  if !literal && read.leading == ['\n'] && !read.blank && !startsBlank then
    if read.trailing.isEmpty then [' '] else []
  else read.leading

/-- Reads the lines of a block. -/
def readBlockLines (literal : Bool) (indent : Nat) (start : Mark) :
    Nat → Cursor → BlockText → Except Flaw (Cursor × BlockText)
  | 0, c, read => .ok (c, read)
  | fuel + 1, c, read =>
    if c.column != indent || c.rest.isEmpty then .ok (c, read)
    else
      let startsBlank := c.peek.any isSpace
      let (line, c) := c.takeWhile fun d => !isBreak d
      let parts := line :: read.trailing :: read.joint literal startsBlank :: read.parts
      let (ending, c) :=
        match c.peek with
        | none => ([], c)
        | some d => ([breakChar d], c.newLine)
      match readIndentation indent start fuel c [] 0 with
      | .error flaw => .error flaw
      | .ok (c, breaks, _) => readBlockLines literal indent start fuel c ⟨parts, ending, breaks.reverse, startsBlank⟩

/-- Reads a block from its indicator on, inside a collection with the indentation `around`. -/
def readBlock (fuel : Nat) (literal : Bool) (around : Int) (c : Cursor) : Except Flaw (Cursor × List Char) := do
  let start := c.mark
  let (c, chomping, increment) ← readBlockHeader start (c.skip 1)
  let c ← c.restOfLine (.scanning .blockScalar) start
  let asked := if increment = 0 then 0 else (max around 0).toNat + increment
  let (c, breaks, widest) ← readIndentation asked start fuel c [] 0
  let (c, read) ← readBlockLines literal (blockIndent asked around widest) start fuel c { trailing := breaks.reverse }
  let tail :=
    match chomping with
    | .strip => []
    | .clip => read.leading
    | .keep => read.leading ++ read.trailing
  return (c, read.parts.reverse.flatten ++ tail)

end SkillLint.Yaml
