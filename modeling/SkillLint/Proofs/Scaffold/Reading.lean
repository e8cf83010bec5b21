import SkillLint.Proofs.Header.Reading
import SkillLint.Proofs.Scaffold.Passing

/-!
# The document of a new package is read back

A built-in template is made into a document from which the name and the description are read back: the name as it is, and the
description on one line and without the pair of quotes that it may have at its ends. The body is that of the template with the
title in its place, whatever the description holds.
-/

namespace SkillLint

namespace Template

open Header (entryLine)

/-! ## The header -/

section Header

variable (name description : List Char)

/-- The lines of the header of a new document are entries, the name first. -/
theorem keysOf_header : Header.keysOf [entryLine "name" name, entryLine "description" description] = ["name", "description"] := by
  have hn : Header.isTopLevel (entryLine "name" name) = true := Header.isTopLevel_of_knownKey (by decide) _
  have hd : Header.isTopLevel (entryLine "description" description) = true := Header.isTopLevel_of_knownKey (by decide) _
  have hkn : Header.keyOf? (entryLine "name" name) = some "name" := Header.keyOf?_of_knownKey (by decide) _
  have hkd : Header.keyOf? (entryLine "description" description) = some "description" := Header.keyOf?_of_knownKey (by decide) _
  simp [Header.keysOf, hn, hd, hkn, hkd]

/-- No line of the header of a new document draws a finding. -/
theorem lineFindings_header (number : Nat) :
    Header.lineFindings number [entryLine "name" name, entryLine "description" description] = [] := by
  refine Header.lineFindings_eq_nil number ?_ ?_
  · intro line hl _
    simp only [List.mem_cons, List.not_mem_nil, or_false] at hl
    rcases hl with rfl | rfl
    · exact ⟨"name", by decide, Header.keyOf?_of_knownKey (by decide) _⟩
    · exact ⟨"description", by decide, Header.keyOf?_of_knownKey (by decide) _⟩
  · rw [keysOf_header]
    decide

/-- The header of a new document lists no tools. -/
theorem toolsOf_header : Header.toolsOf [entryLine "name" name, entryLine "description" description] = none := by
  have hn : ¬Header.isEntryOf Header.toolsKey (entryLine "name" name) = true := fun h =>
    absurd ((Header.isEntryOf_of_knownKey (by decide) _ _).1 h) (by decide)
  have hd : ¬Header.isEntryOf Header.toolsKey (entryLine "description" description) = true := fun h =>
    absurd ((Header.isEntryOf_of_knownKey (by decide) _ _).1 h) (by decide)
  rw [Header.toolsOf, Header.value?, List.find?_cons_of_neg hn, List.find?_cons_of_neg hd]
  rfl

end Header

/-- What is read of a new document with a valid name. -/
theorem ofDocument_newDocument {name description title : List Char} {more : List String} {most : Nat}
    (hn : Check.ValidName name most) : Extraction.ofDocument (newDocument name (Text.flatten description) title more) =
      { fields := ⟨some (String.ofList name), some (String.ofList (Header.unquote (Text.flatten description))), none⟩
        raw := String.ofList (Text.joinLines [entryLine "name" name, entryLine "description" (Text.flatten description)])
        bodyStart := 5
        body := String.ofList (Text.joinLines (bodyLines title more))
        findings := [] } := by
  obtain ⟨hname, hdescription⟩ := value?_header name (Text.flatten description)
  obtain ⟨htrim, hunquote⟩ := trim_of_validName hn
  rw [htrim] at hname
  rw [Text.trim_flatten] at hdescription
  have hfields : Header.fieldsOf (newDocument name (Text.flatten description) title more).header =
      ⟨some (String.ofList name), some (String.ofList (Header.unquote (Text.flatten description))), none⟩ := by
    rw [Header.fieldsOf, newDocument, hname, hdescription, toolsOf_header, Option.map_some, Option.map_some, hunquote]
  rw [Extraction.ofDocument_eq_meaning, Document.meaning, hfields, newDocument, lineFindings_header]
  rfl

/-! ## The body -/

/-- A built-in template starts with a header of two placeholders and a title that is a third one. -/
theorem textOfLines_opening (more : List String) : textOfLines (openingLines.take 6 ++ more) =
    "---\nname: " ++ slot "name" ++ "\ndescription: " ++ slot "description" ++ "\n---\n" ++
      ("\n# " ++ slot "title" ++ ("\n" ++ textOfLines more)) := by
  have hopen : openingLines.take 6 =
      ["---", "name: " ++ slot "name", "description: " ++ slot "description", "---", "", "# " ++ slot "title"] := rfl
  rw [hopen, ← String.toList_inj, toList_textOfLines]
  simp [Text.endLines_cons, toList_textOfLines]

theorem joinLines_append_newline {ls : List (List Char)} (h : ls ≠ []) : Text.joinLines ls ++ ['\n'] = Text.endLines ls := by
  induction ls with
  | nil => exact absurd rfl h
  | cons l ls ih =>
    by_cases hls : ls = []
    · rw [hls, Text.joinLines_singleton, Text.endLines_cons]
      rfl
    · rw [Text.joinLines_cons l hls, Text.endLines_cons, List.append_assoc, List.cons_append, ih hls]

/-- The body of a new document, with a line feed behind it, is the title and the lines of the template. -/
theorem bodyText_append_newline (title : String) (more : List String) :
    String.ofList (Text.joinLines (bodyLines title.toList more)) ++ "\n" =
      "\n# " ++ title ++ ("\n" ++ textOfLines more) := by
  have hlines : Text.joinLines (bodyLines title.toList more) ++ ['\n'] = Text.endLines (bodyLines title.toList more) :=
    joinLines_append_newline (by simp [bodyLines])
  rw [← String.toList_inj, String.toList_append, String.toList_ofList]
  refine hlines.trans ?_
  simp [bodyLines, Text.endLines_cons, toList_textOfLines]

end Template

namespace ScaffoldRequest

variable {r : ScaffoldRequest} {t made : FileTree}

/-- The document of a built-in template is its opening and further lines, in which no placeholder starts. -/
theorem document_eq {text : String} (h : (r.template = .basic ∧ text = Template.basicDocument) ∨
    (r.template = .withReference ∧ text = Template.referringDocument)) :
    text = Template.textOfLines (Template.openingLines.take 6 ++ furtherLines r.template) ∧
      '{' ∉ (Template.textOfLines (furtherLines r.template)).toList := by
  have hplain : ∀ ls ∈ [Template.basicLines, Template.referringLines], '{' ∉ Text.endLines (ls.map String.toList) := by
    decide
  rw [Template.toList_textOfLines]
  rcases h with ⟨ht, rfl⟩ | ⟨ht, rfl⟩
  · rw [ht]
    exact ⟨rfl, hplain _ (by simp [furtherLines])⟩
  · rw [ht]
    exact ⟨rfl, hplain _ (by simp [furtherLines])⟩

/-- When a package has been created from a built-in template, with a name that draws no error and any description, reading its
document gives the request back, and no finding: the name, the description on one line and without the pair of quotes that it
may have at its ends, and no tools. The body starts on line five and is that of the template with the title in its place, so no
placeholder in the description is replaced. -/
theorem ofText?_run {target : Path} {text : String} (hn : Finding.ErrorFree (Check.checkName r.name nameLengthLimit))
    (ht : (r.template = .basic ∧ text = Template.basicDocument) ∨
      (r.template = .withReference ∧ text = Template.referringDocument))
    (hr : r.run t = (made, .ok target)) :
    ∃ content e front back, made.readText (target.child documentName) = .ok content ∧ Extraction.ofText? content = some e ∧
      e.findings = [] ∧ e.fields.name = some r.name ∧
      e.fields.description = some (String.ofList (Header.unquote (Text.flatten r.description.toList))) ∧
      e.fields.allowedTools = none ∧ e.bodyStart = 5 ∧
      text = "---\nname: " ++ Template.slot "name" ++ "\ndescription: " ++ Template.slot "description" ++ "\n---\n" ++
        (front ++ Template.slot "title" ++ back) ∧ '{' ∉ (front ++ back).toList ∧
      e.body ++ "\n" = front ++ Template.titleOf r.name ++ back := by
  have hname := Check.errorFree_checkName_iff.1 hn
  have htitle : ∀ c ∈ (Template.titleOf r.name).toList, Template.isProse c = true :=
    Template.isProse_titleOf fun c hc => Check.isNameChar_iff.2 (hname.chars c hc)
  obtain ⟨rfl, hplain⟩ := document_eq ht
  obtain ⟨rfl, ⟨place, hl, hnode⟩, -⟩ := run_builtin hname (ht.imp And.left And.left) hr
  have hread := congrArg (Option.map Extraction.ofDocument)
    (@Template.ofText?_newDocument _ r.description.toList _ _ _ hname htitle (furtherLines_plain r.template).2)
  rw [Option.map_some, Template.ofDocument_newDocument hname] at hread
  refine ⟨_, _, "\n# ", "\n" ++ Template.textOfLines (furtherLines r.template),
    FileTree.readText_of_stat (FileTree.stat_of_locate hl hnode), hread, rfl, ?_, rfl, rfl, rfl,
    Template.textOfLines_opening _, ?_, ?_⟩
  · rw [String.ofList_toList]
  · simpa using hplain
  · exact Template.bodyText_append_newline _ _

/-- A description of two lines, with quotes at its ends and a placeholder inside. -/
theorem ofText?_run_quotes :
    let description := "'x:\n " ++ Template.slot "title" ++ "'"
    let r : ScaffoldRequest := ⟨"a-b", description, .basic, ⟨"."⟩, false⟩
    ∃ made content e, r.run ⟨[], []⟩ = (made, .ok ⟨"./a-b"⟩) ∧ made.readText ⟨"./a-b/SKILL.md"⟩ = .ok content ∧
      Extraction.ofText? content = some e ∧ e.findings = [] ∧ e.fields.name = some "a-b" ∧
      e.fields.description = some ("x: " ++ Template.slot "title") ∧ e.fields.allowedTools = none ∧ e.bodyStart = 5 := by
  intro description r
  have hr : r.run ⟨[], []⟩ = ((r.run ⟨[], []⟩).1, .ok ⟨"./a-b"⟩) := attempt_eq (by decide +kernel)
  obtain ⟨content, e, front, back, hcontent, he, hfindings, hname, hdescription, htools, hstart, -, -, -⟩ :=
    ofText?_run (by decide +kernel) (.inl ⟨rfl, rfl⟩) hr
  have hflat : String.ofList (Header.unquote (Text.flatten r.description.toList)) = "x: " ++ Template.slot "title" := by
    decide +kernel
  exact ⟨_, content, e, hr, hcontent, he, hfindings, hname, hflat ▸ hdescription, htools, hstart⟩

end ScaffoldRequest

end SkillLint
