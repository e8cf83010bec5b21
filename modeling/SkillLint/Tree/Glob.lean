import SkillLint.Tree

/-!
# Glob patterns

A pattern is a path some of whose segments stand for several names: a question mark for any character, a star for any
text, brackets for one character of a set or outside it, and a segment of two stars for any number of directories. The
paths that a pattern stands for are listed directory by directory, in the order of names, hidden entries included.
-/

namespace SkillLint.Glob

/-- What is wrong with a pattern. -/
inductive Fault where
  /-- There are more than two stars in a row. -/
  | wildcards
  /-- Two stars share a segment with something else. -/
  | recursion
  /-- A bracket has no partner or nothing in it. -/
  | range
deriving DecidableEq, Repr

/-- A fault of a pattern and the number of characters before it. -/
structure PatternError where
  position : Nat
  fault : Fault
deriving DecidableEq, Repr

/-- A fault as it is told to the user. -/
def Fault.message : Fault → String
  | .wildcards => "wildcards are either regular `*` or recursive `**`"
  | .recursion => "recursive wildcards must form a single path component"
  | .range => "invalid range pattern"

/-- An error as it is told to the user. -/
def PatternError.message (e : PatternError) : String :=
  "Pattern syntax error near position " ++ toString e.position ++ ": " ++ e.fault.message

/-- One part of a pattern. -/
inductive Token where
  | exact (c : Char)
  | anyChar
  | anyText
  | anyDepth
  /-- One character in one of the ranges. -/
  | oneOf (ranges : List (Char × Char))
  /-- One character in none of the ranges. -/
  | noneOf (ranges : List (Char × Char))
deriving DecidableEq, Repr

/-- The ranges that the text between brackets stands for; a character alone is a range of its own. -/
def ranges : List Char → List (Char × Char)
  | a :: '-' :: b :: rest => (a, b) :: ranges rest
  | a :: rest => (a, a) :: ranges rest
  | [] => []

/-- The set of characters in brackets that a text starts with, and the text behind it. The closing bracket may be the
first member, and an exclamation mark in front reverses the set. -/
def readSet? : List Char → Option (Token × List Char)
  | '!' :: first :: rest =>
    let others := rest.takeWhile (· != ']')
    match rest.dropWhile (· != ']') with
    | _ :: behind => some (.noneOf (ranges (first :: others)), behind)
    | [] => none
  | ['!'] => none
  | first :: rest =>
    let others := rest.takeWhile (· != ']')
    match rest.dropWhile (· != ']') with
    | _ :: behind => some (.oneOf (ranges (first :: others)), behind)
    | [] => none
  | [] => none

/-- The parts of the rest of a pattern, where `position` characters have been read, the last of which is `before`. No
more than `fuel` parts are read. -/
def parseFrom : Nat → Nat → Option Char → List Char → Except PatternError (List Token)
  | 0, _, _, _ => .ok []
  | _ + 1, _, _, [] => .ok []
  | fuel + 1, position, _, '?' :: rest => (.anyChar :: ·) <$> parseFrom fuel (position + 1) (some '?') rest
  | fuel + 1, position, before, '*' :: rest =>
    let more := rest.takeWhile (· == '*')
    let behind := rest.dropWhile (· == '*')
    match more.length with
    | 0 => (.anyText :: ·) <$> parseFrom fuel (position + 1) (some '*') behind
    | 1 =>
      if before != none && before != some '/' then .error ⟨position - 1, .recursion⟩
      else
        match behind with
        | [] => .ok [.anyDepth]
        | '/' :: after => (.anyDepth :: ·) <$> parseFrom fuel (position + 3) (some '/') after
        | _ => .error ⟨position + 2, .recursion⟩
    | _ => .error ⟨position + 2, .wildcards⟩
  | fuel + 1, position, _, '[' :: rest =>
    match readSet? rest with
    | some (token, behind) =>
      (token :: ·) <$> parseFrom fuel (position + 1 + (rest.length - behind.length)) (some ']') behind
    | none => .error ⟨position, .range⟩
  | fuel + 1, position, _, c :: rest => (.exact c :: ·) <$> parseFrom fuel (position + 1) (some c) rest

/-- The parts of a pattern. -/
def parse (pattern : List Char) : Except PatternError (List Token) :=
  parseFrom pattern.length 0 none pattern

/-- Whether a character is in one of the ranges. -/
def inRanges (rs : List (Char × Char)) (c : Char) : Bool :=
  rs.any fun (low, high) => low ≤ c && c ≤ high

/-- Whether a part that stands for one character stands for this one. -/
def Token.accepts (c : Char) : Token → Bool
  | exact d => c == d
  | anyChar => true
  | oneOf rs => inRanges rs c
  | noneOf rs => !inRanges rs c
  | anyText | anyDepth => false

/-- The ends of a text, from the whole text down to the empty one. -/
def ends : List Char → List (List Char)
  | [] => [[]]
  | c :: rest => (c :: rest) :: ends rest

/-- Whether a pattern stands for a name. -/
def accepts : List Token → List Char → Bool
  | [], name => name.isEmpty
  | .anyText :: more, name => (ends name).any (accepts more)
  | .anyDepth :: more, name => (ends name).any (accepts more)
  | token :: more, c :: name => token.accepts c && accepts more name
  | _ :: _, [] => false

/-- The name that a pattern without wildcards stands for. -/
def literal? : List Token → Option (List Char)
  | [] => some []
  | .exact c :: more => (literal? more).map (c :: ·)
  | _ => none

/-- The patterns of the segments of a path, of which those behind each recursive one that are recursive are left out. -/
def dropRepeats : List (List Token) → List (List Token)
  | [.anyDepth] :: more =>
    match dropRepeats more with
    | [.anyDepth] :: rest => [.anyDepth] :: rest
    | rest => [.anyDepth] :: rest
  | pattern :: more => pattern :: dropRepeats more
  | [] => []

/-- The path of an entry of a directory; below the working directory paths are written without a dot. -/
def entry (p : Path) (name : String) : Path :=
  if p.components = [.here] then ⟨name⟩ else p.child name

/-- The paths below a directory, each directory before what it holds. -/
def descendants (t : FileTree) (p : Path) : List Path :=
  match t.locate p with
  | .ok place => (t.below place).map fun (names, _) => names.foldl entry p
  | .error _ => []

/-- The last name in a path, as it is matched against a pattern. -/
def lastName (p : Path) : List Char :=
  match p.components.getLast? with
  | some (.name text) => text.toList
  | _ => []

/-- The entries of a directory. -/
def children (t : FileTree) (p : Path) : List Path :=
  match t.locate p with
  | .ok place => ((t.below place).filter fun (names, _) => names.length == 1).map fun (names, _) => names.foldl entry p
  | .error _ => []

/-- The paths of the directory above and of the directory itself, where a pattern that starts with a dot stands for
them. -/
def dotEntries (pattern : List Token) (p : Path) : List Path :=
  if pattern.head? = some (.exact '.') then
    (["..", "."].filter fun name => accepts pattern name.toList).map p.child
  else []

/-- The paths that the patterns of some segments stand for, taken from a path. -/
def expand (t : FileTree) : List (List Token) → Path → List Path
  | [], p => [p]
  | pattern :: rest, p =>
    match literal? pattern with
    | some name =>
      let name := String.ofList name
      let next := entry p name
      if name = "." ∨ name = ".." then if t.isDirectory p then expand t rest next else []
      else if t.contains next then expand t rest next
      else []
    | none =>
      if !t.isDirectory p then []
      else if pattern = [.anyDepth] then
        match rest with
        | [] => (descendants t p).filter t.isDirectory
        | last :: more =>
          ((descendants t p).filter fun q => accepts last (lastName q)).flatMap (expand t more)
      else
        (dotEntries pattern p).flatMap (expand t rest)
          ++ ((children t p).filter fun q => accepts pattern (lastName q)).flatMap (expand t rest)

/-- The segments of a text; the empty one behind a final slash is none. -/
def textSegments (text : List Char) : List (List Char) :=
  match (text.splitOn '/').reverse with
  | [] :: rest => rest.reverse
  | segments => segments.reverse

/-- The paths in a tree that a pattern stands for: from the root for an absolute pattern, and otherwise from the working
directory. Segments are walked as they are written, with the empty ones and the dots. -/
def list (t : FileTree) (pattern : Path) : Except PatternError (List Path) := do
  let text := pattern.text.toList
  let _ ← parse text
  let start : Path := if pattern.isAbsolute then ⟨"/"⟩ else ⟨"."⟩
  let patterns ← (textSegments (if pattern.isAbsolute then text.drop 1 else text)).mapM parse
  return expand t (dropRepeats patterns) start

end SkillLint.Glob
