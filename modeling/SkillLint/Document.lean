import SkillLint.Text.Lines

/-!
# Documents

A document is a text with a header: the lines between the first two delimiter lines. What stands before the first
delimiter is ignored, and what stands after the second is the body, further delimiter lines included. Packages and
configuration files have this shape.
-/

namespace SkillLint

/-- The name of the document in every package. -/
def documentName : String := "SKILL.md"

/-- A document cut at its first two delimiter lines. -/
structure Document where
  /-- The lines before the first delimiter. -/
  preamble : List (List Char)
  /-- The lines between the two delimiters. -/
  header : List (List Char)
  /-- The lines after the second delimiter. -/
  body : List (List Char)
deriving DecidableEq, Repr

namespace Document

/-- Whether a line marks the start or the end of a header: three hyphens, with blanks around them at most. -/
def isDelimiter (line : List Char) : Bool :=
  Text.trim line == ['-', '-', '-']

/-- The lines before the first delimiter and the lines after it, if there is one. -/
def splitAtDelimiter? : List (List Char) → Option (List (List Char) × List (List Char))
  | [] => none
  | line :: rest =>
    if isDelimiter line then some ([], rest)
    else (splitAtDelimiter? rest).map fun (before, after) => (line :: before, after)

/-- The document that some lines make up, if two of them are delimiters. -/
def ofLines? (ls : List (List Char)) : Option Document := do
  let (preamble, rest) ← splitAtDelimiter? ls
  let (header, body) ← splitAtDelimiter? rest
  return ⟨preamble, header, body⟩

/-- The document that a text holds, if it has two delimiter lines. -/
def ofText? (content : String) : Option Document :=
  ofLines? (Text.lines content.toList)

/-- The header as one text. -/
def headerText (d : Document) : String :=
  String.ofList (Text.joinLines d.header)

/-- The body as one text. -/
def bodyText (d : Document) : String :=
  String.ofList (Text.joinLines d.body)

/-- The number, counted from one, of the first header line. -/
def headerStart (d : Document) : Nat :=
  d.preamble.length + 2

/-- The number, counted from one, of the first body line. -/
def bodyStart (d : Document) : Nat :=
  d.preamble.length + d.header.length + 3

/-- Lines split at a delimiter are the lines before it, the delimiter and the lines after it, and no line before it is a
delimiter. -/
theorem splitAtDelimiter?_eq_some_iff {ls before after : List (List Char)} :
    splitAtDelimiter? ls = some (before, after) ↔
      ∃ mark, ls = before ++ mark :: after ∧ isDelimiter mark = true ∧ ∀ l ∈ before, isDelimiter l = false := by
  induction ls generalizing before with
  | nil => simp [splitAtDelimiter?]
  | cons line rest ih =>
    cases hl : isDelimiter line with
    | true =>
      simp only [splitAtDelimiter?, hl, if_true, Option.some.injEq, Prod.mk.injEq]
      constructor
      · rintro ⟨rfl, rfl⟩
        exact ⟨line, rfl, hl, by simp⟩
      · rintro ⟨mark, h, _, hb⟩
        cases before with
        | nil => simpa using (List.cons.inj h).2
        | cons b bs =>
          have : line = b := (List.cons.inj h).1
          have := hb b (by simp)
          simp_all
    | false =>
      simp only [splitAtDelimiter?, hl, Bool.false_eq_true, if_false, Option.map_eq_some_iff, Prod.exists, Prod.mk.injEq]
      constructor
      · rintro ⟨b, a, h, rfl, rfl⟩
        obtain ⟨mark, rfl, hm, hb⟩ := ih.1 h
        exact ⟨mark, rfl, hm, by simpa [hl] using hb⟩
      · rintro ⟨mark, h, hm, hb⟩
        cases before with
        | nil =>
          have : line = mark := (List.cons.inj h).1
          simp_all
        | cons b bs =>
          obtain ⟨rfl, h'⟩ := List.cons.inj h
          exact ⟨bs, after, ih.2 ⟨mark, h', hm, fun l hl' => hb l (List.mem_cons_of_mem _ hl')⟩, rfl, rfl⟩

end Document

end SkillLint
