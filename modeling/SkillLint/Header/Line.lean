import SkillLint.Text.Lines

/-!
# Lines of a header

What a line of a header says, and how its value is read: as it stands, without quotes, or as a list of tools.
-/

namespace SkillLint.Header

/-!
## Header lines

A header is read line by line. Blank lines and comments say nothing; a line that is indented or starts with a hyphen
continues the entry above it, and with a hyphen it is an item of a list; every other line should be an entry, a key and
a value with a colon between them.
-/

/-- What one line of a header says. -/
inductive Line where
  /-- Nothing: a blank line or a comment. -/
  | filler
  /-- An item of a list, given as the text after its hyphen. -/
  | item (text : List Char)
  /-- An indented line that is no item. -/
  | continuation
  /-- A key and a value, both without blanks around them. -/
  | entry (key value : List Char)
  /-- A line that has no colon, given without blanks around it. -/
  | malformed (text : List Char)
deriving DecidableEq, Repr

/-- The text before the first colon and the text after it, if there is a colon. -/
def splitAtColon? : List Char → Option (List Char × List Char)
  | [] => none
  | c :: rest => if c = ':' then some ([], rest) else (splitAtColon? rest).map fun (key, value) => (c :: key, value)

/-- The line that an unindented text without blanks around it is, when it is neither filler nor an item. -/
def Line.ofEntry (text : List Char) : Line :=
  match splitAtColon? text with
  | some (key, value) => .entry (Text.trim key) (Text.trim value)
  | none => .malformed text

/-- What a line of a header says. -/
def Line.ofText (line : List Char) : Line :=
  match Text.trim line with
  | [] => .filler
  | '#' :: _ => .filler
  | '-' :: rest => .item rest
  | text => if line.head?.any Text.isBlank then .continuation else .ofEntry text

/-!
## Quoted values

A header value or a list entry may stand in a pair of double or single quotes, which is taken off once. Nothing inside
is unescaped.
-/

/-- The text between a pair of the given quote characters, if the text starts and ends with one. -/
def between? (quote : Char) : List Char → Option (List Char)
  | [] => none
  | c :: rest => if c = quote ∧ rest.getLast? = some quote then some rest.dropLast else none

/-- A value without the one pair of matching quotes around it, if it has one. -/
def unquote (value : List Char) : List Char :=
  match between? '"' value with
  | some inner => inner
  | none => (between? '\'' value).getD value

/-- The text inside a pair of quotes is what the quotes were put around. -/
theorem between?_eq_some_iff {quote : Char} {value inner : List Char} :
    between? quote value = some inner ↔ value = quote :: (inner ++ [quote]) := by
  cases value with
  | nil => simp [between?]
  | cons c rest =>
    simp only [between?, Option.ite_none_right_eq_some, Option.some.injEq, List.cons.injEq]
    constructor
    · rintro ⟨⟨rfl, hl⟩, rfl⟩
      obtain ⟨front, rfl⟩ := List.getLast?_eq_some_iff.1 hl
      simp
    · rintro ⟨rfl, rfl⟩
      simp

theorem unquote_double (inner : List Char) : unquote ('"' :: (inner ++ ['"'])) = inner := by
  rw [unquote, between?_eq_some_iff.2 rfl]

/-!
## Tool lists

A tool list is written inline: entries separated by commas or blanks, the whole optionally in square brackets. Commas
and blanks inside parentheses belong to the entry, as in `Bash(git add:*)`; a closing parenthesis without a partner
changes nothing. Entries may be quoted, and empty ones are dropped.
-/

/-- The number of open parentheses after a character. -/
def depthAfter (depth : Nat) (c : Char) : Nat :=
  if c = '(' then depth + 1 else if c = ')' then depth - 1 else depth

/-- Whether a character separates entries where no parenthesis is open. -/
def isSeparator (c : Char) : Bool :=
  c == ',' || Text.isBlank c

/-- The pieces of a text between the separators outside parentheses, when `depth` parentheses are open before it. -/
def splitOutside (depth : Nat) : List Char → List (List Char)
  | [] => [[]]
  | c :: rest =>
    if depth = 0 ∧ isSeparator c then [] :: splitOutside depth rest
    else
      match splitOutside (depthAfter depth c) rest with
      | [] => [[c]]
      | piece :: more => (c :: piece) :: more

/-- The text inside a pair of square brackets, or the whole text when it is not in brackets. -/
def unbracket (value : List Char) : List Char :=
  match value with
  | '[' :: rest => if rest.getLast? = some ']' then rest.dropLast else value
  | _ => value

/-- The entry that a piece stands for: the piece without blanks around it and without quotes. -/
def entryOf (piece : List Char) : List Char :=
  unquote (Text.trim piece)

/-- The entries of a tool list. -/
def toolEntries (value : List Char) : List (List Char) :=
  ((splitOutside 0 (unbracket (Text.trim value))).map entryOf).filter fun entry => !entry.isEmpty

/-- The entries of a tool list, as strings. -/
def splitToolList (value : String) : List String :=
  (toolEntries value.toList).map String.ofList

theorem splitOutside_ne_nil (depth : Nat) (s : List Char) : splitOutside depth s ≠ [] := by
  cases s with
  | nil => simp [splitOutside]
  | cons c rest =>
    rw [splitOutside]
    split
    · simp
    · split <;> simp

end SkillLint.Header
