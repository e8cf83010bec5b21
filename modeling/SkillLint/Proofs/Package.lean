import SkillLint.Proofs.Tree.Walk
import SkillLint.Proofs.Verdict

/-!
# Validating a package

Validating gives no report exactly when the document has fewer than two delimiter lines; otherwise it gives, under whatever
settings, the report on the document that is cut at the first two of them.
-/

namespace SkillLint

namespace Extraction

variable (e : Extraction) (present : String → Bool)

/-- All that is found about a document, before any rules are disabled. -/
def allFindings (config : Config) : List Finding :=
  e.findings ++ Check.all.flatMap (Check.run (e.context config present))

theorem report_eq (config : Config) : e.report config present =
    Report.withoutDisabled ⟨Check.all.map Check.label, e.allFindings present config⟩ config.disable := rfl

theorem mem_allFindings_of_mem_report {config : Config} {f : Finding} (h : f ∈ (e.report config present).findings) :
    f ∈ e.allFindings present config :=
  (List.mem_filter.1 h).1

/-- What is found about a document by a rule of a check is found by that check. -/
theorem mem_run_of_mem_allFindings {d : Document} {config : Config} {f : Finding} {check : Check} {rule : Rule}
    (hr : rule ∈ check.rules) (hc : f.rule = rule.code) (hf : f ∈ (ofDocument d).allFindings present config) :
    f ∈ Check.run ((ofDocument d).context config present) check := by
  rcases List.mem_append.1 hf with hf | hf
  · obtain ⟨hheader, -⟩ := (Header.allOf_findings_ofDocument d).isOf_of_code hf hc
    exact absurd hheader (Check.notMem_headerRules_of_mem_rules hr)
  · obtain ⟨other, -, hf⟩ := List.mem_flatMap.1 hf
    obtain ⟨hother, -⟩ := (Check.allOf_run _ other).isOf_of_code hf hc
    exact Check.eq_of_mem_rules hr hother ▸ hf

theorem mem_allFindings_of_mem_run {config : Config} {f : Finding} {check : Check}
    (hf : f ∈ Check.run (e.context config present) check) : f ∈ e.allFindings present config :=
  List.mem_append_right _ (List.mem_flatMap.2 ⟨check, Check.mem_all check, hf⟩)

/-- When each check finds what it found before without some findings, and none of these is about the header, the report is the
one before without them. -/
theorem report_eq_filter {a b : Config} {present' : String → Bool} {keep : Finding → Bool} (hd : b.disable = a.disable)
    (hheader : ∀ f ∈ e.findings, keep f = true)
    (hchecks : ∀ check, Check.run (e.context b present') check = (Check.run (e.context a present) check).filter keep) :
    e.report b present' =
      { e.report a present with findings := (e.report a present).findings.filter keep } := by
  have hall : e.allFindings present' b = (e.allFindings present a).filter keep := by
    rw [allFindings, allFindings, List.filter_append, List.filter_eq_self.2 hheader, List.filter_flatMap, funext hchecks]
  rw [report_eq, report_eq, hall, hd, Report.withoutDisabled, Report.withoutDisabled, List.filter_filter,
    List.filter_filter]
  exact congrArg (Report.mk _) (List.filter_congr fun f _ => Bool.and_comm _ _)

end Extraction

namespace Package

variable (t : FileTree) (p : Package)

theorem openAt_of_readText {t : FileTree} {p : Package} (hd : t.isDirectory p.root = true)
    (hr : t.readText (p.root.child documentName) = .ok p.content) : openAt t p.root = .ok p := by
  simp only [openAt, FileTree.contains_of_isDirectory hd, hd, FileTree.isFile_of_readText hr, hr, Bool.not_true,
    Bool.false_eq_true, if_false]

theorem validate_of_countP_lt (h : (Text.lines p.content.toList).countP Document.isDelimiter < 2) (config : Config) :
    p.validate t config = .error .missingHeader := by
  rw [validate, validateText, Extraction.ofText?, Document.ofText?_eq_none_iff.2 h]
  rfl

/-- A document with two delimiter lines is cut at the first two of them, and every report is about what is read of the cut. -/
theorem exists_validate_eq (h : 2 ≤ (Text.lines p.content.toList).countP Document.isDelimiter) :
    ∃ d : Document, d.IsCutOf (Text.lines p.content.toList) ∧
      ∀ config, p.validate t config = .ok ((Extraction.ofDocument d).report config (p.holds t)) := by
  obtain ⟨d, hd⟩ := Document.exists_of_two_delimiters h
  have hcut := Document.ofText?_eq_some_iff.1 hd
  exact ⟨d, hcut, fun config => validateText_of_isCutOf hcut config (p.holds t)⟩

end Package

end SkillLint
