import SkillLint.Text.CharSet

/-!
# Words and searching

Where words stand in a text, and how a text is searched for something.
-/

namespace SkillLint.Text

/-!
## Word characters

A word character is an alphabetic character, a mark, a decimal digit, a connecting punctuation mark such as the
underscore, or one of the two join controls. Words are cut by version 16 of the Unicode Character Database, so none of
the characters that version 17 added is in a word. A word starts at a word character that does not follow another one.
-/

/-- The boundaries of the marks (categories Mn, Mc and Me) that are not alphabetic. -/
def plainMarkSet : CharSet := [
  0x300, 0x345, 0x346, 0x363, 0x483, 0x48A, 0x591, 0x5B0, 0x658, 0x659, 0x6DF, 0x6E1, 0x6EA, 0x6ED, 0x740, 0x74B,
  0x7EB, 0x7F4, 0x7FD, 0x7FE, 0x818, 0x81A, 0x82D, 0x82E, 0x859, 0x85C, 0x898, 0x8A0, 0x8CA, 0x8D4, 0x8E0, 0x8E2,
  0x8EA, 0x8F0, 0x93C, 0x93D, 0x94D, 0x94E, 0x951, 0x955, 0x9BC, 0x9BD, 0x9CD, 0x9CE, 0x9FE, 0x9FF, 0xA3C, 0xA3D,
  0xA4D, 0xA4E, 0xABC, 0xABD, 0xACD, 0xACE, 0xAFD, 0xB00, 0xB3C, 0xB3D, 0xB4D, 0xB4E, 0xB55, 0xB56, 0xBCD, 0xBCE,
  0xC3C, 0xC3D, 0xC4D, 0xC4E, 0xCBC, 0xCBD, 0xCCD, 0xCCE, 0xD3B, 0xD3D, 0xD4D, 0xD4E, 0xDCA, 0xDCB, 0xE47, 0xE4D,
  0xE4E, 0xE4F, 0xEBA, 0xEBB, 0xEC8, 0xECD, 0xECE, 0xECF, 0xF18, 0xF1A, 0xF35, 0xF36, 0xF37, 0xF38, 0xF39, 0xF3A,
  0xF3E, 0xF40, 0xF84, 0xF85, 0xF86, 0xF88, 0xFC6, 0xFC7, 0x1037, 0x1038, 0x1039, 0x103B, 0x135D, 0x1360, 0x1714,
  0x1716, 0x1734, 0x1735, 0x17B4, 0x17B6, 0x17C9, 0x17D4, 0x17DD, 0x17DE, 0x180B, 0x180E, 0x180F, 0x1810, 0x1939,
  0x193C, 0x1A60, 0x1A61, 0x1A75, 0x1A7D, 0x1A7F, 0x1A80, 0x1AB0, 0x1ABF, 0x1AC1, 0x1ACC, 0x1ACF, 0x1ADE, 0x1AE0,
  0x1AEC, 0x1B34, 0x1B35, 0x1B44, 0x1B45, 0x1B6B, 0x1B74, 0x1BAA, 0x1BAC, 0x1BE6, 0x1BE7, 0x1BF2, 0x1BF4, 0x1C37,
  0x1C38, 0x1CD0, 0x1CD3, 0x1CD4, 0x1CE9, 0x1CED, 0x1CEE, 0x1CF4, 0x1CF5, 0x1CF7, 0x1CFA, 0x1DC0, 0x1DD3, 0x1DF5,
  0x1E00, 0x20D0, 0x20F1, 0x2CEF, 0x2CF2, 0x2D7F, 0x2D80, 0x302A, 0x3030, 0x3099, 0x309B, 0xA66F, 0xA673, 0xA67C,
  0xA67E, 0xA6F0, 0xA6F2, 0xA806, 0xA807, 0xA82C, 0xA82D, 0xA8C4, 0xA8C5, 0xA8E0, 0xA8F2, 0xA92B, 0xA92E, 0xA953,
  0xA954, 0xA9B3, 0xA9B4, 0xA9C0, 0xA9C1, 0xAABF, 0xAAC0, 0xAAC1, 0xAAC2, 0xAAF6, 0xAAF7, 0xABEC, 0xABEE, 0xFE00,
  0xFE10, 0xFE20, 0xFE30, 0x101FD, 0x101FE, 0x102E0, 0x102E1, 0x10A38, 0x10A3B, 0x10A3F, 0x10A40, 0x10AE5, 0x10AE7,
  0x10D6A, 0x10D6E, 0x10EFD, 0x10F00, 0x10F46, 0x10F51, 0x10F82, 0x10F86, 0x11046, 0x11047, 0x11070, 0x11071,
  0x1107F, 0x11080, 0x110B9, 0x110BB, 0x11133, 0x11135, 0x11173, 0x11174, 0x111C0, 0x111C1, 0x111C9, 0x111CD,
  0x11235, 0x11237, 0x112E9, 0x112EB, 0x1133B, 0x1133D, 0x1134D, 0x1134E, 0x11366, 0x1136D, 0x11370, 0x11375,
  0x113CE, 0x113D1, 0x113D2, 0x113D3, 0x113E1, 0x113E3, 0x11442, 0x11443, 0x11446, 0x11447, 0x1145E, 0x1145F,
  0x114C2, 0x114C4, 0x115BF, 0x115C1, 0x1163F, 0x11640, 0x116B6, 0x116B8, 0x1172B, 0x1172C, 0x11839, 0x1183B,
  0x1193D, 0x1193F, 0x11943, 0x11944, 0x119E0, 0x119E1, 0x11A33, 0x11A35, 0x11A47, 0x11A48, 0x11A98, 0x11A9A,
  0x11C3F, 0x11C40, 0x11D42, 0x11D43, 0x11D44, 0x11D46, 0x11D97, 0x11D98, 0x11F41, 0x11F43, 0x11F5A, 0x11F5B,
  0x13440, 0x13441, 0x13447, 0x13456, 0x1612F, 0x16130, 0x16AF0, 0x16AF5, 0x16B30, 0x16B37, 0x16FE4, 0x16FE5,
  0x1BC9D, 0x1BC9E, 0x1CF00, 0x1CF2E, 0x1CF30, 0x1CF47, 0x1D165, 0x1D16A, 0x1D16D, 0x1D173, 0x1D17B, 0x1D183,
  0x1D185, 0x1D18C, 0x1D1AA, 0x1D1AE, 0x1D242, 0x1D245, 0x1DA00, 0x1DA37, 0x1DA3B, 0x1DA6D, 0x1DA75, 0x1DA76,
  0x1DA84, 0x1DA85, 0x1DA9B, 0x1DAA0, 0x1DAA1, 0x1DAB0, 0x1E130, 0x1E137, 0x1E2AE, 0x1E2AF, 0x1E2EC, 0x1E2F0,
  0x1E4EC, 0x1E4F0, 0x1E5EE, 0x1E5F0, 0x1E8D0, 0x1E8D7, 0x1E944, 0x1E947, 0x1E948, 0x1E94B, 0xE0100, 0xE01F0]

/-- The boundaries of the connecting punctuation (category Pc). -/
def connectorSet : CharSet := [
  0x5F, 0x60, 0x203F, 0x2041, 0x2054, 0x2055, 0xFE33, 0xFE35, 0xFE4D, 0xFE50, 0xFF3F, 0xFF40]

/-- The boundaries of the characters that version 17 added. -/
def newcomerSet : CharSet := [
  0x88F, 0x890, 0xC5C, 0xC5D, 0xCDC, 0xCDD, 0x1ACF, 0x1ADE, 0x1AE0, 0x1AEC, 0x20C1, 0x20C2, 0x2B96, 0x2B97, 0xA7CE,
  0xA7D0, 0xA7D2, 0xA7D3, 0xA7D4, 0xA7D5, 0xA7F1, 0xA7F2, 0xFBC3, 0xFBD3, 0xFD90, 0xFD92, 0xFDC8, 0xFDCF, 0x10940,
  0x1095A, 0x10EC5, 0x10EC8, 0x10ED0, 0x10ED9, 0x10EFA, 0x10EFC, 0x11B60, 0x11B68, 0x11DB0, 0x11DDC, 0x11DE0,
  0x11DEA, 0x16EA0, 0x16EB9, 0x16EBB, 0x16ED4, 0x16FF2, 0x16FF7, 0x187F8, 0x18800, 0x18D09, 0x18D1F, 0x18D80,
  0x18DF3, 0x1CCFA, 0x1CCFD, 0x1CEBA, 0x1CED1, 0x1CEE0, 0x1CEF1, 0x1E6C0, 0x1E6DF, 0x1E6E0, 0x1E6F6, 0x1E6FE,
  0x1E700, 0x1F6D8, 0x1F6D9, 0x1F777, 0x1F77B, 0x1F8D0, 0x1F8D9, 0x1FA54, 0x1FA58, 0x1FA8A, 0x1FA8B, 0x1FA8E,
  0x1FA8F, 0x1FAC8, 0x1FAC9, 0x1FACD, 0x1FACE, 0x1FAEA, 0x1FAEB, 0x1FAEF, 0x1FAF0, 0x1FBFA, 0x1FBFB, 0x2B73A,
  0x2B740, 0x2CEA2, 0x2CEAE, 0x323B0, 0x3347A]

/-- The characters that words are made of. -/
def isWord (c : Char) : Bool :=
  (isAlphabetic c || isDecimalDigit c || connectorSet.holds c || plainMarkSet.holds c || c == '\u200C' || c == '\u200D')
    && !newcomerSet.holds c

/-- The decimal digits that words are made of. -/
def isWordDigit (c : Char) : Bool :=
  isDecimalDigit c && !newcomerSet.holds c

/-- Whether there is a character and it is a word character. -/
def startsWithWord (s : List Char) : Bool :=
  s.head?.any isWord

/-- The longest run of word characters that a text starts with. -/
def leadingWord (s : List Char) : List Char :=
  s.takeWhile isWord

/-!
## Searching a text

A recogniser reads a match at the front of a text: it is given the character before it, if there is one, and returns
what it found together with the number of characters it read. The search goes through a text from the left, takes the
first match that it meets and goes on behind it, so that matches never overlap.
-/

/-- Reads a match at the front of a text, given the character before it; returns the match and its length. -/
abbrev Recogniser (α : Type) := Option Char → List Char → Option (α × Nat)

/-- A match and the position at which it starts. -/
structure Occurrence (α : Type) where
  /-- The number of characters before the match. -/
  start : Nat
  /-- What the recogniser returned. -/
  found : α
deriving Repr, DecidableEq

/-- The matches in a text that starts at `position`, behind `skip` characters that belong to an earlier match. -/
def occurrencesFrom {α : Type} (r : Recogniser α) : Option Char → Nat → Nat → List Char → List (Occurrence α)
  | _, _, _, [] => []
  | _, skip + 1, position, c :: rest => occurrencesFrom r (some c) skip (position + 1) rest
  | before, 0, position, c :: rest =>
    match r before (c :: rest) with
    | some (a, size) => ⟨position, a⟩ :: occurrencesFrom r (some c) (size - 1) (position + 1) rest
    | none => occurrencesFrom r (some c) 0 (position + 1) rest

/-- The matches in a text, from the left and without overlap. -/
def occurrences {α : Type} (r : Recogniser α) (s : List Char) : List (Occurrence α) :=
  occurrencesFrom r none 0 0 s

/-- Whether a text has the given part somewhere. -/
def hasPart (part : List Char) : List Char → Bool
  | [] => part.isEmpty
  | c :: rest => part.isPrefixOf (c :: rest) || hasPart part rest

theorem hasPart_iff {part s : List Char} : hasPart part s = true ↔ part <:+: s := by
  induction s with
  | nil => simp [hasPart]
  | cons c s ih => simp [hasPart, ih, List.infix_cons_iff]

end SkillLint.Text
