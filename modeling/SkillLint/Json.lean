/-!
# Values in JSON notation

The values that reports are written with, and their notation over several lines: members of lists and objects stand on
lines of their own, indented by two spaces more than what holds them, and empty lists and objects are closed on the
spot. In texts the quote, the backslash and the control characters are escaped.
-/

namespace SkillLint

/-- A value: numbers are natural, and the members of an object keep their order. -/
inductive Json where
  | bool (value : Bool)
  | number (value : Nat)
  | text (value : String)
  | list (items : List Json)
  | object (members : List (String × Json))

namespace Json

/-- The digit for a number below sixteen, in lowercase. -/
def hexDigit (n : Nat) : Char :=
  if n < 10 then Char.ofNat (48 + n) else Char.ofNat (87 + n)

/-- A character as it stands in a text. -/
def escapeChar (c : Char) : List Char :=
  if c = '"' then ['\\', '"']
  else if c = '\\' then ['\\', '\\']
  else if c = '\n' then ['\\', 'n']
  else if c = '\r' then ['\\', 'r']
  else if c = '\t' then ['\\', 't']
  else if c = '\x08' then ['\\', 'b']
  else if c = '\x0c' then ['\\', 'f']
  else if c.toNat < 32 then ['\\', 'u', '0', '0', hexDigit (c.toNat / 16), hexDigit (c.toNat % 16)]
  else [c]

/-- A text in quotes. -/
def quote (s : List Char) : List Char :=
  '"' :: (s.flatMap escapeChar ++ ['"'])

/-- The start of a line at the given depth. -/
def newLine (depth : Nat) : List Char :=
  '\n' :: List.replicate (2 * depth) ' '

mutual

/-- A value that stands at the given depth. -/
def print (depth : Nat) : Json → List Char
  | bool true => "true".toList
  | bool false => "false".toList
  | number n => (toString n).toList
  | text s => quote s.toList
  | list [] => ['[', ']']
  | list (item :: more) =>
    '[' :: (newLine (depth + 1) ++ print (depth + 1) item ++ printItems (depth + 1) more ++ newLine depth ++ [']'])
  | object [] => ['{', '}']
  | object ((key, value) :: more) =>
    '{' :: (newLine (depth + 1) ++ quote key.toList ++ ':' :: ' ' :: print (depth + 1) value
      ++ printMembers (depth + 1) more ++ newLine depth ++ ['}'])

/-- The items of a list behind its first one. -/
def printItems (depth : Nat) : List Json → List Char
  | [] => []
  | item :: more => ',' :: (newLine depth ++ print depth item ++ printItems depth more)

/-- The members of an object behind its first one. -/
def printMembers (depth : Nat) : List (String × Json) → List Char
  | [] => []
  | (key, value) :: more =>
    ',' :: (newLine depth ++ quote key.toList ++ ':' :: ' ' :: print depth value ++ printMembers depth more)

end

/-- A value with a line feed behind it. -/
def document (value : Json) : String :=
  String.ofList (print 0 value ++ ['\n'])

end Json

end SkillLint
