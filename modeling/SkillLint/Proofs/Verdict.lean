import SkillLint.Package
import SkillLint.Proofs.Check.Fields
import SkillLint.Proofs.Check.PathSeparator
import SkillLint.Proofs.Check.References
import SkillLint.Proofs.Rule

/-!
# The verdict

A package passes exactly when its document is sound: the header names and describes the skill validly, no backslash of the
body separates path segments, and the files that the body refers to are there. Of the findings about the header only those
about missing fields are errors, and three of the seven checks make warnings only; the settings bear on the verdict through
the two limits alone.
-/

namespace SkillLint

open Finding (ErrorFree)

/-! ## What makes no error -/

theorem Header.errorFree_lineFindings (number : Nat) (header : List (List Char)) : ErrorFree (lineFindings number header) :=
  (allOf_lineFindings number header).errorFree (by decide)

/-- There is an error about missing fields unless both mandatory fields are there. -/
theorem Header.errorFree_missingFields_iff {fields : HeaderFields} :
    ErrorFree (missingFields fields) ↔ fields.name.isSome = true ∧ fields.description.isSome = true := by
  unfold missingFields
  rw [Finding.errorFree_append_iff]
  cases fields.name <;> cases fields.description <;> simp [Rule.isError, Rule.severity]

namespace Check

theorem errorFree_toolsFindings (c : Context) : ErrorFree (toolsFindings c) :=
  (allOf_run c .allowedTools).errorFree (by decide)

theorem errorFree_bodySizeFindings (c : Context) : ErrorFree (bodySizeFindings c) :=
  (allOf_run c .bodySize).errorFree (by decide)

theorem errorFree_timeSensitiveFindings (c : Context) : ErrorFree (timeSensitiveFindings c) :=
  (allOf_run c .timeSensitive).errorFree (by decide)

/-- The check of the name makes no error exactly when the name, if there is one, is valid. -/
theorem errorFree_nameFindings_iff {c : Context} : ErrorFree (nameFindings c) ↔
    ∀ name ∈ c.fields.name, ValidName name.toList c.config.thresholds.maxNameLength := by
  unfold nameFindings
  split
  · rename_i name h
    simp [h, errorFree_checkName_iff]
  · rename_i h
    simp [h]

/-- The check of the description makes no error exactly when the description, if there is one, is valid. -/
theorem errorFree_descriptionFindings_iff {c : Context} : ErrorFree (descriptionFindings c) ↔
    ∀ description ∈ c.fields.description,
      ValidDescription description.toList c.config.thresholds.maxDescriptionLength := by
  unfold descriptionFindings
  split
  · rename_i description h
    simp [h, errorFree_checkDescription_iff]
  · rename_i h
    simp [h]

/-- The seven checks make no error exactly when the fields that are there are valid, no backslash of the body separates path
segments and the files that the body refers to are present. -/
theorem errorFree_runAll_iff {c : Context} : ErrorFree (runAll c all).findings ↔
    (∀ name ∈ c.fields.name, ValidName name.toList c.config.thresholds.maxNameLength) ∧
      (∀ description ∈ c.fields.description,
        ValidDescription description.toList c.config.thresholds.maxDescriptionLength) ∧
      HasNoSeparator c.body.toList ∧ HasFiles c.body c.present := by
  have hall : ErrorFree (runAll c all).findings ↔ ∀ check ∈ all, ErrorFree (run c check) := Finding.errorFree_flatMap_iff
  rw [hall, all]
  simp only [List.forall_mem_cons, List.not_mem_nil, false_implies, implies_true, and_true, run, errorFree_nameFindings_iff,
    errorFree_descriptionFindings_iff, errorFree_pathSeparatorFindings_iff, errorFree_referenceFindings_iff,
    errorFree_toolsFindings, errorFree_bodySizeFindings, errorFree_timeSensitiveFindings, true_and]

end Check

/-! ## Sound documents -/

/-- What a document must be to pass, with the limits of the settings and the files beside it. -/
structure Document.IsSound (d : Document) (thresholds : Thresholds) (present : String → Bool) : Prop where
  name : ∃ value, Header.value? "name" d.header = some value ∧
    Check.ValidName (Header.unquote value) thresholds.maxNameLength
  description : ∃ value, Header.value? "description" d.header = some value ∧
    Check.ValidDescription (Header.unquote value) thresholds.maxDescriptionLength
  separators : Check.HasNoSeparator d.bodyText.toList
  files : Check.HasFiles d.bodyText present

/-- A field is there and satisfies a predicate exactly when the header has a value for its key that does. -/
theorem Header.field_iff (key : String) (header : List (List Char)) (p : List Char → Prop) :
    (((value? key header).map fun value => String.ofList (unquote value)).isSome = true ∧
        ∀ text ∈ (value? key header).map fun value => String.ofList (unquote value), p text.toList) ↔
      ∃ value, value? key header = some value ∧ p (unquote value) := by
  cases value? key header <;> simp

/-- The report on a document has exit status zero exactly when the document is sound. -/
theorem Document.exitCode_report_eq_zero_iff (d : Document) (config : Config) (present : String → Bool) :
    ((Extraction.ofDocument d).report config present).exitCode = 0 ↔ d.IsSound config.thresholds present := by
  rw [Extraction.ofDocument_eq_meaning, Extraction.report, Report.exitCode_withoutDisabled_eq_zero_iff,
    Finding.errorFree_append_iff, Check.errorFree_runAll_iff]
  simp only [Document.meaning, Extraction.context, Finding.errorFree_append_iff,
    Header.errorFree_lineFindings, Header.errorFree_missingFields_iff, true_and, Header.fieldsOf]
  have hname := Header.field_iff "name" d.header (Check.ValidName · config.thresholds.maxNameLength)
  have hdescription :=
    Header.field_iff "description" d.header (Check.ValidDescription · config.thresholds.maxDescriptionLength)
  constructor
  · rintro ⟨⟨hn, hd⟩, hn', hd', hseparators, hfiles⟩
    exact ⟨hname.1 ⟨hn, hn'⟩, hdescription.1 ⟨hd, hd'⟩, hseparators, hfiles⟩
  · rintro ⟨hn, hd, hseparators, hfiles⟩
    obtain ⟨hn, hn'⟩ := hname.2 hn
    obtain ⟨hd, hd'⟩ := hdescription.2 hd
    exact ⟨⟨hn, hd⟩, hn', hd', hseparators, hfiles⟩

theorem Extraction.ofText?_of_isCutOf {content : String} {d : Document} (h : d.IsCutOf (Text.lines content.toList)) :
    ofText? content = some (ofDocument d) := by
  rw [ofText?, Document.ofText?_eq_some_iff.2 h]
  rfl

theorem validateText_of_isCutOf {content : String} {d : Document} (h : d.IsCutOf (Text.lines content.toList)) (config : Config)
    (present : String → Bool) :
    validateText content config present = .ok ((Extraction.ofDocument d).report config present) := by
  rw [validateText, Extraction.ofText?_of_isCutOf h]

/-- Validating a package gives no report when its document has fewer than two delimiter lines. Otherwise the document is cut
at the first two of them, and the report has exit status zero exactly when the document is sound. -/
theorem Package.validate_verdict (t : FileTree) (p : Package) (config : Config) :
    ((Text.lines p.content.toList).countP Document.isDelimiter < 2 → p.validate t config = .error .missingHeader) ∧
      (2 ≤ (Text.lines p.content.toList).countP Document.isDelimiter →
        ∃ (d : Document) (report : Report), d.IsCutOf (Text.lines p.content.toList) ∧ p.validate t config = .ok report ∧
          (report.exitCode = 0 ↔ d.IsSound config.thresholds fun file => t.contains (p.root.join ⟨file⟩))) := by
  constructor
  · intro h
    rw [validate, validateText, Extraction.ofText?, Document.ofText?_eq_none_iff.2 h]
    rfl
  · intro h
    cases hd : Document.ofText? p.content with
    | none => exact absurd (Document.ofText?_eq_none_iff.1 hd) (Nat.not_lt.2 h)
    | some d =>
      have hcut := Document.ofText?_eq_some_iff.1 hd
      exact ⟨d, _, hcut, validateText_of_isCutOf hcut config (p.holds t), d.exitCode_report_eq_zero_iff config (p.holds t)⟩

/-- A package passes whose description is quoted and whose body refers to a file beside the document. -/
theorem Package.validate_verdict_passing :
    let t : FileTree := ⟨[(["a-b", "y"], .file ByteArray.empty), (["a-b"], .directory)], []⟩
    let p : Package := ⟨⟨"a-b"⟩, "---\nname: a-b\ndescription: 'c'\n---\n[x](y)"⟩
    ∃ report, p.validate t {} = .ok report ∧ report.exitCode = 0 := by
  intro t p
  obtain ⟨d, report, hcut, hreport, hverdict⟩ := (validate_verdict t p {}).2 (by decide +kernel)
  refine ⟨report, hreport, hverdict.2 ?_⟩
  have hd : Document.ofText? p.content =
      some ⟨[], ["name: a-b".toList, "description: 'c'".toList], ["[x](y)".toList]⟩ := by
    decide +kernel
  obtain rfl := Option.some.inj ((Document.ofText?_eq_some_iff.2 hcut).symm.trans hd)
  have hname : Check.ValidName "a-b".toList nameLengthLimit := Check.errorFree_checkName_iff.1 (by decide +kernel)
  have hdescription : Check.ValidDescription "c".toList descriptionLengthLimit :=
    Check.errorFree_checkDescription_iff.1 (by decide +kernel)
  refine ⟨⟨"a-b".toList, by decide, hname⟩, ⟨"'c'".toList, by decide, hdescription⟩, ?_, fun r hr _ _ => ?_⟩
  · exact (Check.firstSeparator?_eq_none_iff 0).1 (by decide +kernel)
  · have hrefs : Markdown.references "[x](y)" = [⟨"y", 0⟩] := by decide +kernel
    have hbody : Document.bodyText ⟨[], ["name: a-b".toList, "description: 'c'".toList], ["[x](y)".toList]⟩ = "[x](y)" := by
      decide +kernel
    rw [hbody, hrefs, List.mem_singleton] at hr
    subst hr
    decide +kernel

end SkillLint
