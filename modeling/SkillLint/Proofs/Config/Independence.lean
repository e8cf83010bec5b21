import SkillLint.Proofs.Check.Settings
import SkillLint.Proofs.Package
import SkillLint.Proofs.Report

/-!
# Settings cannot hide errors

How the report on a document depends on the settings. The errors depend on the limits of the name and the description only.
Disabling rules takes away the warnings that the patterns name, and knowing further tools takes away findings about entries
that name one of them; neither takes away anything else, nor adds or moves a finding.
-/

namespace SkillLint

/-! ## Reports on an extraction -/

namespace Extraction

variable (e : Extraction) (present : String → Bool)

theorem errors_report (config : Config) :
    (e.report config present).errors = (e.allFindings present config).filter Finding.isError := by
  rw [report_eq, Report.errors_withoutDisabled, Report.errors]

/-- The errors are the same under configurations with the same limits of the name and the description. -/
theorem errors_report_eq {a b : Config} (hn : a.thresholds.maxNameLength = b.thresholds.maxNameLength)
    (hd : a.thresholds.maxDescriptionLength = b.thresholds.maxDescriptionLength) :
    (e.report a present).errors = (e.report b present).errors := by
  rw [errors_report, errors_report, allFindings, allFindings, List.filter_append, List.filter_append, List.filter_flatMap,
    List.filter_flatMap]
  have h : (fun check => (Check.run (e.context a present) check).filter Finding.isError) =
      fun check => (Check.run (e.context b present) check).filter Finding.isError :=
    funext fun check => Check.errors_run_eq e present hn hd check
  rw [h]

/-- Disabling rules takes their warnings out of the report without disabled rules. -/
theorem report_disable (config : Config) (patterns : List String) :
    e.report { config with disable := patterns } present =
      (e.report { config with disable := [] } present).withoutDisabled patterns := by
  have h : e.report { config with disable := [] } present =
      ⟨Check.all.map Check.label, e.allFindings present config⟩ := by
    rw [report_eq, Report.withoutDisabled_nil]
    rfl
  rw [h]
  rfl

/-- With more tools known, the findings about entries that name one of them are gone, and the others are the same, unless the
header itself draws findings of that rule. -/
theorem report_of_subset (he : ∀ f ∈ e.findings, f.rule ≠ Rule.toolsUnknown.code) {a b : Config}
    (ht : b.thresholds = a.thresholds) (hd : b.disable = a.disable) (h : ∀ tool ∈ a.extraTools, tool ∈ b.extraTools)
    {gone : Finding → Bool}
    (hgone : ∀ f, gone f = true ↔ ∃ entry, f = Check.unknownTool entry ∧ Check.toolName entry ∈ b.extraTools) :
    e.report b present =
      { e.report a present with findings := (e.report a present).findings.filter fun f => !gone f } := by
  refine e.report_eq_filter present hd (fun f hf => ?_) fun check => Check.run_of_subset e present ht h hgone check
  rw [Bool.not_eq_true', Bool.eq_false_iff, Ne, hgone]
  rintro ⟨entry, rfl, -⟩
  exact he _ hf rfl

end Extraction

/-! ## Reports on a package -/

/-- How the report on a document depends on the settings. -/
structure Report.FollowsSettings (report : Config → Report) : Prop where
  /-- The errors, the verdict and the exit status depend on the limits of the name and the description only. -/
  errors : ∀ a b : Config, a.thresholds.maxNameLength = b.thresholds.maxNameLength →
    a.thresholds.maxDescriptionLength = b.thresholds.maxDescriptionLength →
      (report a).errors = (report b).errors ∧ (report a).passed = (report b).passed ∧
        (report a).exitCode = (report b).exitCode
  /-- Disabling rules takes out the warnings that the patterns name. -/
  disable : ∀ (config : Config) (patterns : List String), report { config with disable := patterns } =
    { report { config with disable := [] } with
      findings := (report { config with disable := [] }).findings.filter fun f =>
        ¬(f.severity = .warning ∧ f.IsNamedBy patterns) }
  /-- Knowing further tools takes out the findings about entries that name one of them. -/
  extra_tools : ∀ (config : Config) (extra more : List String), (∀ tool ∈ extra, tool ∈ more) → ∃ gone : Finding → Bool,
    (∀ f, gone f = true ↔ ∃ entry, f = Check.unknownTool entry ∧ Check.toolName entry ∈ more) ∧
      report { config with extraTools := more } =
        { report { config with extraTools := extra } with
          findings := (report { config with extraTools := extra }).findings.filter fun f => !gone f }

/-- The report on a document follows the settings. -/
theorem Document.followsSettings_report (d : Document) (present : String → Bool) :
    Report.FollowsSettings fun config => (Extraction.ofDocument d).report config present where
  errors a b hn hd := by
    have h := (Extraction.ofDocument d).errors_report_eq present hn hd
    have hp : ((Extraction.ofDocument d).report a present).passed = ((Extraction.ofDocument d).report b present).passed :=
      congrArg List.isEmpty h
    exact ⟨h, hp, by rw [Report.exitCode, hp, Report.exitCode]⟩
  disable config patterns := by
    rw [Extraction.report_disable, Report.withoutDisabled_eq]
  extra_tools config extra more h := by
    classical
    have hheader : ∀ f ∈ (Extraction.ofDocument d).findings, f.rule ≠ Rule.toolsUnknown.code := fun f hf => by
      obtain ⟨rule, hr, hof⟩ := Header.allOf_findings_ofDocument d f hf
      have hne : ∀ rule ∈ Header.lineRules ++ Header.fieldRules, rule.code ≠ Rule.toolsUnknown.code := by decide
      rw [hof.code]
      exact hne rule hr
    refine ⟨fun f => decide (∃ entry, f = Check.unknownTool entry ∧ Check.toolName entry ∈ more),
      fun f => decide_eq_true_iff, ?_⟩
    exact (Extraction.ofDocument d).report_of_subset present hheader (a := { config with extraTools := extra })
      (b := { config with extraTools := more }) rfl rfl h fun f => decide_eq_true_iff

/-- Validating a package with some settings or with others: there is a report under all of them or under none, and the reports
follow the settings. Disabling some rules and then others, on whatever report, is disabling them at once, in either order. -/
theorem Package.validate_settings (t : FileTree) (p : Package) :
    ((Text.lines p.content.toList).countP Document.isDelimiter < 2 →
        ∀ config, p.validate t config = .error .missingHeader) ∧
      (2 ≤ (Text.lines p.content.toList).countP Document.isDelimiter →
        ∃ report : Config → Report, (∀ config, p.validate t config = .ok (report config)) ∧
          Report.FollowsSettings report) ∧
      ∀ (r : Report) (first second : List String),
        (r.withoutDisabled first).withoutDisabled second = r.withoutDisabled (first ++ second) ∧
          (r.withoutDisabled first).withoutDisabled second = r.withoutDisabled (second ++ first) := by
  refine ⟨p.validate_of_countP_lt t, fun h => ?_, fun r first second => ⟨?_, ?_⟩⟩
  · obtain ⟨d, -, hreport⟩ := p.exists_validate_eq t h
    exact ⟨_, hreport, d.followsSettings_report (p.holds t)⟩
  · exact r.withoutDisabled_withoutDisabled first second
  · rw [r.withoutDisabled_withoutDisabled, r.withoutDisabled_append_comm]

/-- A package with an invalid name and an unknown tool: neither disabling the rules of both nor adding the tool hides the error
about the name, and adding it takes out the finding about it. -/
theorem Package.validate_settings_tools :
    let t : FileTree := ⟨[], []⟩
    let p : Package := ⟨⟨"a"⟩, "---\nname: A\nallowed-tools: Deploy, Read, Fetch\n---\n"⟩
    ∃ report : Config → Report, (∀ config, p.validate t config = .ok (report config)) ∧
      (report { disable := ["name", "tools/unknown"], extraTools := ["Deploy"] }).errors = (report {}).errors ∧
      ∃ gone : Finding → Bool, gone (Check.unknownTool "Deploy") = true ∧
        (report { extraTools := ["Deploy"] }).findings = (report {}).findings.filter fun f => !gone f := by
  intro t p
  obtain ⟨report, hreport, hfollows⟩ := (validate_settings t p).2.1 (by decide +kernel)
  obtain ⟨herrors, -, -⟩ := hfollows.errors { disable := ["name", "tools/unknown"], extraTools := ["Deploy"] } {} rfl rfl
  obtain ⟨gone, hgone, hextra⟩ := hfollows.extra_tools {} [] ["Deploy"] (by simp)
  exact ⟨report, hreport, herrors, gone, (hgone _).2 ⟨"Deploy", rfl, by decide⟩, congrArg Report.findings hextra⟩

end SkillLint
