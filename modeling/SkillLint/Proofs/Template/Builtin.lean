import SkillLint.Proofs.Header.Written
import SkillLint.Proofs.Template.Substitution
import SkillLint.Template

/-!
# What the built-in templates are made into

The document of a built-in template, with its placeholders replaced, is a header with two entries and a body: an empty line,
the title and the lines of the template. This holds for whatever values the placeholders have.
-/

namespace SkillLint.Template

/-- The lines of the basic document behind the title. -/
def basicLines : List String :=
  openingLines.drop 6 ++ closingLines

/-- The lines of the document with a reference behind the title. -/
def referringLines : List String :=
  openingLines.drop 6 ++ ["Keep this file short and move detail into [reference.md](reference.md)."] ++ closingLines

/-- The body of a new document: an empty line, the title and further lines. -/
def bodyLines (title : List Char) (more : List String) : List (List Char) :=
  [] :: (['#', ' '] ++ title) :: more.map String.toList

theorem toList_textOfLines (ls : List String) : (textOfLines ls).toList = Text.endLines (ls.map String.toList) := by
  simp [textOfLines, Text.endLines, String.toList_join, List.flatMap_map]

section Substitution

variable (values : List (String × String))

/-- A line without placeholders is left as it is. -/
theorem substituteFrom_line {line : List Char} (h : '{' ∉ line) (ls : List (List Char)) :
    substituteFrom values 0 (Text.endLines (line :: ls)) = line ++ '\n' :: substituteFrom values 0 (Text.endLines ls) := by
  have hn : '{' ∉ line ++ ['\n'] := by simpa using h
  have he : Text.endLines (line :: ls) = (line ++ ['\n']) ++ Text.endLines ls := by simp [Text.endLines_cons]
  rw [he, substituteFrom_append values hn, List.append_assoc]
  rfl

/-- A line that ends in a placeholder has the value in its place. -/
theorem substituteFrom_slotLine {front word : List Char} (hf : '{' ∉ front) (hne : word ≠ [])
    (hw : ∀ c ∈ word, Text.isWord c = true) (ls : List (List Char)) :
    substituteFrom values 0 (Text.endLines ((front ++ placeholder word) :: ls)) =
      (front ++ valueOf values word) ++ '\n' :: substituteFrom values 0 (Text.endLines ls) := by
  have he : Text.endLines ((front ++ placeholder word) :: ls) =
      front ++ (placeholder word ++ (['\n'] ++ Text.endLines ls)) := by
    simp [Text.endLines_cons]
  rw [he, substituteFrom_append values hf, substituteFrom_placeholder values hne hw, substituteFrom_append values (by decide)]
  simp

/-- The header and the title of a template have the values in their places; lines without placeholders follow unchanged. -/
theorem substitute_opening {more : List String} (h : ∀ line ∈ more, '{' ∉ line.toList) :
    substitute values (textOfLines (openingLines.take 6 ++ more)) =
      Header.documentText
        [Header.entryLine "name" (valueOf values "name".toList),
          Header.entryLine "description" (valueOf values "description".toList)]
        (Text.endLines (bodyLines (valueOf values "title".toList) more)) := by
  have hmore : '{' ∉ Text.endLines (more.map String.toList) := by
    intro hm
    obtain ⟨line, hl, hc⟩ := List.mem_flatMap.1 hm
    obtain ⟨text, ht, rfl⟩ := List.mem_map.1 hl
    exact h text ht (by simpa using hc)
  have hopen : (openingLines.take 6).map String.toList =
      ["---".toList, "name: ".toList ++ placeholder "name".toList,
        "description: ".toList ++ placeholder "description".toList, "---".toList, [],
        "# ".toList ++ placeholder "title".toList] := by
    decide
  rw [substitute, toList_textOfLines, List.map_append, hopen]
  simp only [List.cons_append, List.nil_append]
  have hname : ∀ c ∈ "name".toList, Text.isWord c = true := List.all_eq_true.1 (by decide)
  have hdescription : ∀ c ∈ "description".toList, Text.isWord c = true := List.all_eq_true.1 (by decide)
  have htitle : ∀ c ∈ "title".toList, Text.isWord c = true := List.all_eq_true.1 (by decide)
  rw [substituteFrom_line values (by decide), substituteFrom_slotLine values (by decide) (by decide) hname,
    substituteFrom_slotLine values (by decide) (by decide) hdescription, substituteFrom_line values (by decide),
    substituteFrom_line values (by decide), substituteFrom_slotLine values (by decide) (by decide) htitle,
    substituteFrom_of_no_brace values hmore, Header.documentText]
  simp [Header.entryLine, Header.delimiterLine, Text.endLines_cons, bodyLines]
  rfl

end Substitution

/-- The document that the basic template is made into. -/
theorem substitute_basicDocument (values : List (String × String)) : substitute values basicDocument =
    Header.documentText
      [Header.entryLine "name" (valueOf values "name".toList),
        Header.entryLine "description" (valueOf values "description".toList)]
      (Text.endLines (bodyLines (valueOf values "title".toList) basicLines)) :=
  substitute_opening values (by decide)

/-- The document that the template with a reference is made into. -/
theorem substitute_referringDocument (values : List (String × String)) : substitute values referringDocument =
    Header.documentText
      [Header.entryLine "name" (valueOf values "name".toList),
        Header.entryLine "description" (valueOf values "description".toList)]
      (Text.endLines (bodyLines (valueOf values "title".toList) referringLines)) :=
  substitute_opening values (by decide)

end SkillLint.Template
