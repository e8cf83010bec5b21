import SkillLint.Text.Lines
import SkillLint.Text.Word

/-!
# Links

A link is a text in square brackets followed by a target in parentheses, as in `[text](target)`. Blanks may stand around
the target, and a title in double quotes may follow it after blanks. A target is either any text in angle brackets, or a
run of characters other than blanks and parentheses in which groups in parentheses may stand, one level deep. Image
links look the same behind their exclamation mark.
-/

namespace SkillLint.Markdown

/-- A link as it is read. -/
structure Link where
  /-- The target as it is written, angle brackets included. -/
  target : List Char
  /-- The number of characters of the link before its target. -/
  offset : Nat
deriving DecidableEq, Repr

/-- Whether a character may stand alone in a bare target. -/
def isBare (c : Char) : Bool :=
  c != '(' && c != ')' && !Text.isBlank c

/-- Whether a text starts with bare characters and a closing parenthesis. -/
def closesGroup (s : List Char) : Bool :=
  (s.dropWhile isBare).head? == some ')'

/-- The length of the longest bare target that a text starts with, where `inside` tells whether a group is open. -/
def bareLength (inside : Bool) : List Char → Nat
  | [] => 0
  | c :: rest =>
    if inside then 1 + bareLength (c != ')') rest
    else if c = '(' then if closesGroup rest then 1 + bareLength true rest else 0
    else if isBare c then 1 + bareLength false rest
    else 0

/-- The rest of a text behind what may follow a target: a title, blanks and the closing parenthesis. -/
def dropTail? (s : List Char) : Option (List Char) :=
  match s.dropWhile Text.isBlank with
  | ')' :: rest => some rest
  | '"' :: title =>
    if s.head?.any Text.isBlank then
      match title.dropWhile (· != '"') with
      | '"' :: behind =>
        match behind.dropWhile Text.isBlank with
        | ')' :: rest => some rest
        | _ => none
      | _ => none
    else none
  | _ => none

/-- The target in angle brackets that a text starts with, and the text behind the link. -/
def readAngleTarget? : List Char → Option (List Char × List Char)
  | '<' :: rest =>
    match rest.dropWhile (· != '>') with
    | '>' :: behind => (dropTail? behind).map fun after => ('<' :: rest.takeWhile (· != '>') ++ ['>'], after)
    | _ => none
  | _ => none

/-- The bare target that a text starts with, and the text behind the link. -/
def readBareTarget? (s : List Char) : Option (List Char × List Char) :=
  let size := bareLength false s
  if size = 0 then none else (dropTail? (s.drop size)).map fun after => (s.take size, after)

/-- The target that a text starts with, and the text behind the link; the form in angle brackets is tried first. -/
def readTarget? (s : List Char) : Option (List Char × List Char) :=
  match readAngleTarget? s with
  | some found => some found
  | none => readBareTarget? s

/-- Reads a link. -/
def readLink : Text.Recogniser Link := fun _ s =>
  match s with
  | '[' :: text =>
    match text.dropWhile (· != ']') with
    | ']' :: '(' :: inner =>
      let start := inner.dropWhile Text.isBlank
      (readTarget? start).map fun (target, after) =>
        (⟨target, s.length - start.length⟩, s.length - after.length)
    | _ => none
  | _ => none

/-- Where a link leads, and where it stands. -/
structure Reference where
  /-- The target without angle brackets. -/
  target : String
  /-- The line, counted from zero, on which the target begins. -/
  line : Nat
deriving DecidableEq, Repr

/-- A target without the angle brackets at its ends and without blanks around it. -/
def bareTarget (target : List Char) : List Char :=
  Text.trim (Text.dropTrailing (· == '>') (target.dropWhile (· == '<')))

/-- The reference that a link in a text makes. -/
def referenceOf (s : List Char) (link : Text.Occurrence Link) : Reference :=
  ⟨String.ofList (bareTarget link.found.target), Text.lineAt s (link.start + link.found.offset)⟩

/-- The references of a text in order of first appearance: one for each target that is not empty. -/
def references (text : String) : List Reference :=
  (((Text.occurrences readLink text.toList).map (referenceOf text.toList)).filter fun r => r.target != "").eraseDupsBy
    fun r s => r.target == s.target

end SkillLint.Markdown
