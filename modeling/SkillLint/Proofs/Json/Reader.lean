import SkillLint.Json

/-!
# Reading JSON

What a text in JSON notation stands for. The reader takes any text that is in the notation, not only what a report is written
with: blanks may stand wherever they may, and the characters of a text may be escaped in every way. It refuses the values that
nothing here has a use for: null, and numbers that are not natural.
-/

namespace SkillLint.Json

/-- What reads a value from the start of a text, and gives it with the rest of the text. -/
abbrev Reader (α : Type) := List Char → Option (α × List Char)

/-- Whether a character may stand between the parts of a value. -/
def isSpace (c : Char) : Bool :=
  c = ' ' ∨ c = '\n' ∨ c = '\r' ∨ c = '\t'

/-- The text behind the blanks at its start. -/
def skipSpaces (s : List Char) : List Char :=
  s.dropWhile isSpace

/-! ## Texts -/

/-- The value of a hexadecimal digit. -/
def hexValue? (c : Char) : Option Nat :=
  if '0' ≤ c ∧ c ≤ '9' then some (c.toNat - 48)
  else if 'a' ≤ c ∧ c ≤ 'f' then some (c.toNat - 87)
  else if 'A' ≤ c ∧ c ≤ 'F' then some (c.toNat - 55)
  else none

/-- Reads four hexadecimal digits. -/
def readUnit? : Reader Nat
  | a :: b :: c :: d :: rest => do
    let a ← hexValue? a
    let b ← hexValue? b
    let c ← hexValue? c
    let d ← hexValue? d
    return (((16 * a + b) * 16 + c) * 16 + d, rest)
  | _ => none

/-- Reads a character that is written with its number. A character beyond four digits is written as two surrogates, of which
none stands alone. -/
def readNumbered? (s : List Char) : Option (Char × List Char) := do
  let (first, s) ← readUnit? s
  if first < 0xd800 ∨ 0xdfff < first then return (Char.ofNat first, s)
  else if 0xdc00 ≤ first then none
  else
    match s with
    | '\\' :: 'u' :: s => do
      let (second, s) ← readUnit? s
      if 0xdc00 ≤ second ∧ second ≤ 0xdfff then
        return (Char.ofNat (0x10000 + 0x400 * (first - 0xd800) + (second - 0xdc00)), s)
      else none
    | _ => none

/-- The characters that a letter behind a backslash stands for. -/
def escapes : List (Char × Char) :=
  [('"', '"'), ('\\', '\\'), ('/', '/'), ('b', '\x08'), ('f', '\x0c'), ('n', '\n'), ('r', '\r'), ('t', '\t')]

/-- Reads one character of a text. -/
def readChar? : Reader Char
  | '\\' :: 'u' :: rest => readNumbered? rest
  | '\\' :: c :: rest => (escapes.lookup c).map fun written => (written, rest)
  | c :: rest => if c = '"' ∨ c = '\\' ∨ c.toNat < 32 then none else some (c, rest)
  | [] => none

/-- Reads the characters of a text, of which there are fewer than the fuel, and the quote behind them. -/
def readChars? : Nat → Reader (List Char)
  | 0, _ => none
  | fuel + 1, s =>
    if s.head? = some '"' then some ([], s.tail)
    else do
      let (c, s) ← readChar? s
      let (more, s) ← readChars? fuel s
      return (c :: more, s)

/-- Reads a text behind its first quote. -/
def readText? : Reader String := fun s => do
  let (chars, rest) ← readChars? s.length s
  return (String.ofList chars, rest)

/-! ## Values -/

/-- Reads a natural number: decimal digits, of which the first is no zero unless it is the only one, and which neither a fraction
nor an exponent follows. -/
def readNumber? : Reader Json := fun s =>
  let digits := s.takeWhile Char.isDigit
  let rest := s.dropWhile Char.isDigit
  if digits = [] ∨ (digits.head? = some '0' ∧ digits ≠ ['0']) ∨ rest.head? = some '.' ∨ rest.head? = some 'e' ∨
      rest.head? = some 'E' then
    none
  else some (number (Nat.ofDigitChars 10 digits 0), rest)

/-- Reads one of the words that are values. -/
def readWord? : Reader Json
  | 't' :: 'r' :: 'u' :: 'e' :: rest => some (bool true, rest)
  | 'f' :: 'a' :: 'l' :: 's' :: 'e' :: rest => some (bool false, rest)
  | _ => none

/-- Reads the elements behind the first one, each behind a comma, and the bracket behind them. -/
def readMore? {α : Type} (element : Reader α) (close : Char) : Nat → Reader (List α)
  | 0, _ => none
  | fuel + 1, s =>
    match skipSpaces s with
    | [] => none
    | c :: rest =>
      if c = close then some ([], rest)
      else if c = ',' then do
        let (first, rest) ← element (skipSpaces rest)
        let (more, rest) ← readMore? element close fuel rest
        return (first :: more, rest)
      else none

/-- Reads elements with commas between them, and the bracket behind them. -/
def readSequence? {α : Type} (element : Reader α) (close : Char) (fuel : Nat) : Reader (List α) := fun s =>
  match skipSpaces s with
  | [] => none
  | c :: rest =>
    if c = close then some ([], rest)
    else do
      let (first, rest) ← element (c :: rest)
      let (more, rest) ← readMore? element close fuel rest
      return (first :: more, rest)

/-- Reads a member of an object: a text, a colon and a value. -/
def readMember? (value : Reader Json) : Reader (String × Json)
  | '"' :: rest => do
    let (key, rest) ← readText? rest
    match skipSpaces rest with
    | ':' :: rest =>
      let (v, rest) ← value (skipSpaces rest)
      return ((key, v), rest)
    | _ => none
  | _ => none

/-- Reads a value in which neither the depth nor the length of a list or an object is greater than the fuel. -/
def readValue? : Nat → Reader Json
  | 0, _ => none
  | _ + 1, [] => none
  | fuel + 1, c :: rest =>
    if c = '"' then (readText? rest).map fun (s, rest) => (text s, rest)
    else if c = '[' then (readSequence? (readValue? fuel) ']' fuel rest).map fun (items, rest) => (list items, rest)
    else if c = '{' then
      (readSequence? (readMember? (readValue? fuel)) '}' fuel rest).map fun (members, rest) => (object members, rest)
    else if c.isDigit then readNumber? (c :: rest)
    else readWord? (c :: rest)

/-- The value that a text stands for, if it stands for a single one. -/
def ofText? (content : String) : Option Json := do
  let s := skipSpaces content.toList
  let (value, rest) ← readValue? (s.length + 1) s
  if skipSpaces rest = [] then return value else none

end SkillLint.Json
