import SkillLint.Text.Case
import SkillLint.Text.Lines
import SkillLint.Text.Word

/-!
# Wording

Phrases that a text should not have: pronouns of the first and the second person, and dates that go stale.
-/

namespace SkillLint.Wording

/-!
## First and second person

A pronoun occurs in a text where a whole word of the text is one. `I` counts as a capital only, and not where it opens an
abbreviation such as "I/O" or "I.e."; `us` may start with a capital but not be one throughout, so that a country's name
is left alone; the other pronouns are found in any case.
-/

/-- The pronouns that are found in any case. -/
def pronouns : List (List Char) :=
  ["me", "my", "mine", "we", "our", "ours", "you", "your", "yours"].map String.toList

/-- Whether a whole word is a pronoun of the first or the second person. -/
def isPronoun (word : List Char) : Bool :=
  word == ['I'] || word == ['u', 's'] || word == ['U', 's'] || pronouns.any fun p => Text.isWordUpToCase p word

/-- Whether the text behind a lone `I` makes it the start of an abbreviation. -/
def opensAbbreviation : List Char → Bool
  | '/' :: _ => true
  | '.' :: rest => rest.head?.any Text.isAlphabetic
  | _ => false

/-- Reads a whole word that is a pronoun. -/
def readPronoun : Text.Recogniser (List Char) := fun before s =>
  if before.any Text.isWord then none
  else
    let word := Text.leadingWord s
    if !isPronoun word then none
    else if word == ['I'] && opensAbbreviation (s.drop 1) then none
    else some (word, word.length)

/-- The pronouns in a text as they are spelled there, those that differ only in the case of ASCII letters once. -/
def pronounsIn (s : List Char) : List (List Char) :=
  ((Text.occurrences readPronoun s).map (·.found)).eraseDupsBy Text.sameIgnoringAsciiCase

/-!
## Wording that is anchored in time

A time anchor is a lead such as "before" or "as of", blanks, optionally the name of a month with more blanks, and a year
of exactly four decimal digits. It starts and ends at the boundaries of words, its letters may have any case, and the
blanks in it may include line ends.
-/

/-- The phrases that an anchor can start with. -/
inductive Lead where
  | before
  | after
  | asOf
  | until
deriving DecidableEq, Repr

/-- The leads in the order in which they are looked for. -/
def Lead.all : List Lead :=
  [.before, .after, .asOf, .until]

/-- The words of a lead, in lowercase. -/
def Lead.words : Lead → List (List Char)
  | .before => ["before".toList]
  | .after => ["after".toList]
  | .asOf => ["as".toList, "of".toList]
  | .until => ["until".toList]

/-- The names of the months, in lowercase. -/
def months : List (List Char) :=
  ["january", "february", "march", "april", "may", "june", "july", "august", "september", "october", "november",
    "december"].map String.toList

/-- The rest of a text behind the blanks that it starts with, if there are any. -/
def dropBlanks? : List Char → Option (List Char)
  | [] => none
  | c :: rest => if Text.isBlank c then some (rest.dropWhile Text.isBlank) else none

/-- The rest of a text behind a year that it starts with: four decimal digits and then no word character. -/
def dropYear? (s : List Char) : Option (List Char) :=
  let year := s.take 4
  let rest := s.drop 4
  if year.length = 4 ∧ year.all Text.isWordDigit ∧ !Text.startsWithWord rest then some rest else none

/-- The rest of a text behind a year or a month and a year. -/
def dropDate? (s : List Char) : Option (List Char) :=
  match dropYear? s with
  | some rest => some rest
  | none => months.findSome? fun month => Text.dropWord? month s |>.bind dropBlanks? |>.bind dropYear?

/-- The rest of a text behind some words, each followed by blanks. -/
def dropWords? : List (List Char) → List Char → Option (List Char)
  | [], s => some s
  | word :: more, s => Text.dropWord? word s |>.bind dropBlanks? |>.bind (dropWords? more)

/-- Reads a time anchor with the given lead. -/
def readAnchor (lead : Lead) : Text.Recogniser (List Char) := fun before s =>
  if before.any Text.isWord then none
  else
    (dropWords? lead.words s |>.bind dropDate?).map fun rest =>
      let size := s.length - rest.length
      (s.take size, size)

/-- The first time anchor with the given lead. -/
def firstAnchor? (lead : Lead) (s : List Char) : Option (Text.Occurrence (List Char)) :=
  (Text.occurrences (readAnchor lead) s).head?

end SkillLint.Wording
