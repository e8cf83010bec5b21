import SkillLint.Proofs.Containment
import SkillLint.Proofs.Package
import SkillLint.Proofs.Scaffold.Document
import SkillLint.Proofs.Scaffold.Writing

/-!
# New packages and the verdict on them

A package that is created from a built-in template can be inspected, whatever its name and its description are: the document starts with
a header, and the header has its two delimiter lines.

A package that is created from a built-in template, with a name and a description that draw no error, can be validated. Its
report has no error unless the description, brought onto one line, is a pair of quotes with nothing but blanks between them:
the header is written without further quotes, and the reader takes the pair for quotes around an empty value.
-/

namespace SkillLint

/-- A package whose document can be reached and is text is validated through the document it is cut into. -/
theorem Package.validateAt_of_locate {t : FileTree} {root : Path} {content : String} {place : Place} {d : Document}
    (hroot : root.EndsInName) (hl : t.locate (root.child documentName) = .ok place)
    (hn : t.node? place = some (.file content.toUTF8)) (hd : Document.ofText? content = some d) (config : Config) :
    validateAt t root config =
      .ok ((Extraction.ofDocument d).report config fun file => t.contains (root.join ⟨file⟩)) := by
  have hdirectory : t.isDirectory root = true := by
    rw [FileTree.isDirectory, FileTree.stat_of_locate_join hroot.text_ne (by decide) hl]
  have hread : t.readText (root.child documentName) = .ok content :=
    FileTree.readText_of_stat (FileTree.stat_of_locate hl hn)
  have hopen : openAt t root = .ok ⟨root, content⟩ := openAt_of_readText (p := ⟨root, content⟩) hdirectory hread
  rw [validateAt, hopen]
  exact validateText_of_isCutOf (Document.ofText?_eq_some_iff.1 hd) config _

namespace ScaffoldRequest

variable {r : ScaffoldRequest} {t made : FileTree}

/-- What the placeholders of the built-in templates are replaced by. -/
theorem valueOf_placeholderValues (r : ScaffoldRequest) :
    Template.valueOf r.placeholderValues "name".toList = r.trimmedName.toList ∧
      Template.valueOf r.placeholderValues "description".toList = Text.flatten r.description.toList ∧
      Template.valueOf r.placeholderValues "title".toList = (Template.titleOf r.trimmedName).toList := by
  have hd : ("description" == "name") = false := rfl
  have ht : ("title" == "name") = false ∧ ("title" == "description") = false := ⟨rfl, rfl⟩
  simp [Template.valueOf, placeholderValues, List.lookup_cons, hd, ht]

/-- The lines that a built-in template puts behind the title of its document; a directory, which has no such lines, counts as
the basic template. -/
def furtherLines : Template → List String
  | .basic | .directory _ => Template.basicLines
  | .withReference => Template.referringLines

/-- After a request with a built-in template has succeeded, its document is there, and with it the file that the document of
the template with a reference refers to. -/
theorem documents_run {target : Path} (ht : r.template = .basic ∨ r.template = .withReference)
    (hr : r.run t = (made, .ok target)) : target = r.target ∧
      (∃ place, made.locate (r.target.child documentName) = .ok place ∧ made.node? place = some (.file
        (Header.documentText
          [Header.entryLine "name" r.trimmedName.toList, Header.entryLine "description" (Text.flatten r.description.toList)]
          (Text.endLines (Template.bodyLines (Template.titleOf r.trimmedName).toList (furtherLines r.template)))).toUTF8)) ∧
      (r.template = .withReference → made.contains (r.target.join ⟨Template.referenceName⟩) = true) := by
  obtain ⟨rfl, hrefusal, files, hfiles, hwritten⟩ := run_eq_ok hr
  obtain ⟨hname, hdescription, htitle⟩ := valueOf_placeholderValues r
  have hroot := endsInName_of_refusal? hrefusal
  refine ⟨rfl, ?_⟩
  rcases ht with ht | ht
  · rw [ht] at hfiles ⊢
    obtain rfl := Except.ok.inj hfiles
    obtain ⟨place, hl, hnode⟩ :=
      writeAll_entries hroot [(documentName, Template.basicDocument.toUTF8)] (by decide) (by decide) hwritten _
        List.mem_cons_self
    rw [render_toUTF8, Template.substitute_basicDocument, hname, hdescription, htitle] at hnode
    exact ⟨⟨place, hl, hnode⟩, fun e => absurd e (by simp)⟩
  · rw [ht] at hfiles ⊢
    obtain rfl := Except.ok.inj hfiles
    have hall := writeAll_entries hroot [(documentName, Template.referringDocument.toUTF8),
      (Template.referenceName, Template.referenceDocument.toUTF8)] (by decide) (by decide) hwritten
    obtain ⟨place, hl, hnode⟩ := hall _ List.mem_cons_self
    obtain ⟨place', hl', hnode'⟩ := hall _ (List.mem_cons_of_mem _ List.mem_cons_self)
    rw [render_toUTF8, Template.substitute_referringDocument, hname, hdescription, htitle] at hnode
    refine ⟨⟨place, hl, hnode⟩, fun _ => ?_⟩
    have hstat : made.stat (r.target.join ⟨Template.referenceName⟩) = .ok (.file _) := FileTree.stat_of_locate hl' hnode'
    rw [FileTree.contains, hstat]

/-- A package that has been created from a built-in template can be inspected, whatever its name and its description are. -/
theorem exists_validateAt_run {target : Path} (ht : r.template = .basic ∨ r.template = .withReference)
    (hr : r.run t = (made, .ok target)) (config : Config) : ∃ report, Package.validateAt made target config = .ok report := by
  obtain ⟨rfl, ⟨place, hl, hnode⟩, -⟩ := documents_run ht hr
  obtain ⟨-, hrefusal, -⟩ := run_eq_ok hr
  obtain ⟨d, hd⟩ := Header.exists_ofText?_documentText
    [Header.entryLine "name" r.trimmedName.toList, Header.entryLine "description" (Text.flatten r.description.toList)]
    (Text.endLines (Template.bodyLines (Template.titleOf r.trimmedName).toList (furtherLines r.template)))
  exact ⟨_, Package.validateAt_of_locate (endsInName_of_refusal? hrefusal) hl hnode hd config⟩

section Valid

variable (hn : Check.ValidName r.name.toList nameLengthLimit)

include hn in
theorem trimmedName_eq : r.trimmedName = r.name := by
  rw [trimmedName, (Template.trim_of_validName hn).1, String.ofList_toList]

include hn in
/-- The target of a request with a valid name ends in the name. -/
theorem endsInName_target : r.target.EndsInName := by
  have hslash : '/' ∉ r.trimmedName.toList := by
    rw [trimmedName_eq hn]
    intro hm
    exact absurd (Check.isNameChar_iff.2 (hn.chars _ hm)) (by decide)
  refine Path.EndsInName.of_child hslash r.destination fun e => hn.not_empty ?_
  rw [← trimmedName_eq hn, e]
  rfl

include hn in
/-- After a request with a valid name and a built-in template has succeeded, its document is there under that name, and with it
the file that the document of the template with a reference refers to. -/
theorem run_builtin {target : Path} (ht : r.template = .basic ∨ r.template = .withReference)
    (hr : r.run t = (made, .ok target)) : target = r.target ∧
      (∃ place, made.locate (r.target.child documentName) = .ok place ∧ made.node? place = some (.file
        (Header.documentText
          [Header.entryLine "name" r.name.toList, Header.entryLine "description" (Text.flatten r.description.toList)]
          (Text.endLines (Template.bodyLines (Template.titleOf r.name).toList (furtherLines r.template)))).toUTF8)) ∧
      (r.template = .withReference → made.contains (r.target.join ⟨Template.referenceName⟩) = true) := by
  have hmade := documents_run ht hr
  rwa [trimmedName_eq hn] at hmade

end Valid

/-- The further lines of the built-in templates are made of plain characters. -/
theorem furtherLines_plain (template : Template) : furtherLines template ≠ [] ∧
    ∀ line ∈ furtherLines template, ∀ c ∈ line.toList, Template.isPlain c = true := by
  have hall : ∀ lines ∈ [Template.basicLines, Template.referringLines],
      lines ≠ [] ∧ ∀ line ∈ lines, line.toList.all Template.isPlain = true := by
    decide
  have hmem : furtherLines template ∈ [Template.basicLines, Template.referringLines] := by
    cases template <;> simp [furtherLines]
  obtain ⟨hne, hplain⟩ := hall _ hmem
  exact ⟨hne, fun line hl => List.all_eq_true.1 (hplain line hl)⟩

/-- The document of the template with a reference refers to the file that comes with it, and the other one to none. -/
theorem hasFiles_newDocument {name description title : List Char} {template : Template} {present : String → Bool}
    (htitle : ∀ c ∈ title, Template.isProse c = true)
    (hp : template = .withReference → present Template.referenceName = true) :
    Check.HasFiles (Template.newDocument name description title (furtherLines template)).bodyText present := by
  have hbasic : Markdown.links (Text.joinLines (Template.basicLines.map String.toList)) = [] := by
    decide
  have hreferring : Markdown.links (Text.joinLines (Template.referringLines.map String.toList)) =
      [⟨Template.referenceName.toList, 15⟩] := by
    decide
  intro reference href _ _
  obtain ⟨link, hl, ht⟩ := Markdown.exists_link_of_mem_references href
  rw [Template.links_bodyText htitle (furtherLines_plain template).1] at hl
  cases template with
  | basic =>
    rw [furtherLines, hbasic] at hl
    exact absurd hl List.not_mem_nil
  | withReference =>
    rw [furtherLines, hreferring, List.mem_singleton] at hl
    have hfile : Check.filePart reference.target = Template.referenceName := by
      rw [ht, hl]
      decide
    rw [hfile]
    exact hp rfl
  | directory path =>
    rw [furtherLines, hbasic] at hl
    exact absurd hl List.not_mem_nil

section Passing

variable (hn : Check.ValidName r.name.toList nameLengthLimit)
  (hd : Check.ValidDescription r.description.toList descriptionLengthLimit)
  (ht : r.template = .basic ∨ r.template = .withReference)

include hn hd ht in
/-- The verdict on a new package. -/
theorem exists_report_of_run {target : Path} (hr : r.run t = (made, .ok target)) :
    ∃ report, Package.validateAt made target {} = .ok report ∧
      (report.exitCode = 0 ↔ Text.isBlankText (Header.unquote (Text.flatten r.description.toList)) = false) := by
  have htitle : ∀ c ∈ (Template.titleOf r.name).toList, Template.isProse c = true :=
    Template.isProse_titleOf fun c hc => Check.isNameChar_iff.2 (hn.chars c hc)
  have hplain := (furtherLines_plain r.template).2
  obtain ⟨rfl, ⟨place, hl, hnode⟩, hreference⟩ := run_builtin hn ht hr
  have hreport := Package.validateAt_of_locate (endsInName_target hn) hl hnode
    (Template.ofText?_newDocument hn htitle hplain) {}
  refine ⟨_, hreport, ?_⟩
  rw [Document.exitCode_report_eq_zero_iff]
  exact Template.isSound_newDocument_iff hn hd htitle hplain (hasFiles_newDocument htitle hreference)

end Passing

/-- A package that has been created from a built-in template, with a name and a description that draw no error, is validated,
and its report has no error exactly when the description, brought onto one line and without the pair of quotes that it may have
at its ends, is not blank. -/
theorem validateAt_run {target : Path} (hn : Finding.ErrorFree (Check.checkName r.name nameLengthLimit))
    (hd : Finding.ErrorFree (Check.checkDescription r.description descriptionLengthLimit))
    (ht : r.template = .basic ∨ r.template = .withReference) (hr : r.run t = (made, .ok target)) :
    ∃ report, Package.validateAt made target {} = .ok report ∧
      (report.errors = [] ↔ Text.isBlankText (Header.unquote (Text.flatten r.description.toList)) = false) := by
  have hname := Check.errorFree_checkName_iff.1 hn
  have hdescription := Check.errorFree_checkDescription_iff.1 hd
  obtain ⟨report, hreport, hverdict⟩ := exists_report_of_run hname hdescription ht hr
  refine ⟨report, hreport, ?_⟩
  rw [← hverdict, Report.exitCode_eq_zero_iff, Report.passed, List.isEmpty_iff]

/-- An attempt that returns a value has succeeded with it. -/
theorem attempt_eq {ε α : Type} {attempt : FileTree.Attempt ε α} {a : α} (h : attempt.2.toOption = some a) :
    attempt = (attempt.1, .ok a) := by
  obtain ⟨tree, result⟩ := attempt
  cases result with
  | error e => exact absurd h (by simp [Except.toOption])
  | ok b => rw [Option.some.inj h]

/-- A description with quotes inside makes a package that passes. -/
theorem validateAt_run_passing :
    let r : ScaffoldRequest := ⟨"pdf-forms", "Says \"fill\": # now", .withReference, ⟨"."⟩, false⟩
    ∃ made report, r.run ⟨[], []⟩ = (made, .ok ⟨"./pdf-forms"⟩) ∧
      Package.validateAt made ⟨"./pdf-forms"⟩ {} = .ok report ∧ report.errors = [] := by
  intro r
  have hr : r.run ⟨[], []⟩ = ((r.run ⟨[], []⟩).1, .ok ⟨"./pdf-forms"⟩) := attempt_eq (by decide +kernel)
  obtain ⟨report, hreport, hverdict⟩ := validateAt_run (by decide +kernel) (by decide +kernel) (.inr rfl) hr
  exact ⟨_, report, hr, hreport, hverdict.2 (by decide +kernel)⟩

/-- A description that is a pair of quotes draws no error, but the package that is made with it does. -/
theorem validateAt_run_quotes :
    let r : ScaffoldRequest := ⟨"my-skill", "\"\"", .basic, ⟨"."⟩, false⟩
    Finding.ErrorFree (Check.checkName r.name nameLengthLimit) ∧
      Finding.ErrorFree (Check.checkDescription r.description descriptionLengthLimit) ∧
      ∃ made report, r.run ⟨[], []⟩ = (made, .ok ⟨"./my-skill"⟩) ∧
        Package.validateAt made ⟨"./my-skill"⟩ {} = .ok report ∧ report.errors ≠ [] := by
  intro r
  have hn : Finding.ErrorFree (Check.checkName r.name nameLengthLimit) := by decide +kernel
  have hd : Finding.ErrorFree (Check.checkDescription r.description descriptionLengthLimit) := by decide +kernel
  have hr : r.run ⟨[], []⟩ = ((r.run ⟨[], []⟩).1, .ok ⟨"./my-skill"⟩) := attempt_eq (by decide +kernel)
  obtain ⟨report, hreport, hverdict⟩ := exists_report_of_run (Check.errorFree_checkName_iff.1 hn)
    (Check.errorFree_checkDescription_iff.1 hd) (.inl rfl) hr
  have hblank : Text.isBlankText (Header.unquote (Text.flatten r.description.toList)) = true := by decide +kernel
  refine ⟨hn, hd, _, report, hr, hreport, fun he => ?_⟩
  have hpass : report.exitCode = 0 := by
    rw [Report.exitCode_eq_zero_iff, Report.passed, he]
    rfl
  exact absurd (hverdict.1 hpass) (by rw [hblank]; decide)

end ScaffoldRequest

end SkillLint
