import SkillLint.Proofs.Package
import SkillLint.Proofs.Report

/-!
# Findings by the names of their rules

The part of a report that patterns name. The rules of a check have a pattern that names them and no others, and so have the rules
of the header. So the named part of a report is made of what one check finds, or of what is found when the header is read, and
the parts of all checks, one behind the other, make up the whole.
-/

namespace SkillLint

namespace Finding

variable {rules : List Rule} {fs : List Finding} {patterns : List String}

theorem IsOf.isNamedBy_iff {f : Finding} {rule : Rule} (h : f.IsOf rule) (patterns : List String) :
    f.IsNamedBy patterns ↔ (rule.finding "").IsNamedBy patterns := by
  rw [IsNamedBy, IsNamedBy, h.code]
  rfl

theorem AllOf.filter_isNamedBy_eq_nil (h : AllOf rules fs) (hr : ∀ rule ∈ rules, ¬(rule.finding "").IsNamedBy patterns) :
    fs.filter (fun f => f.IsNamedBy patterns) = [] := by
  refine List.filter_eq_nil_iff.2 fun f hf => ?_
  obtain ⟨rule, hrule, hof⟩ := h f hf
  rw [decide_eq_true_iff, hof.isNamedBy_iff]
  exact hr rule hrule

theorem AllOf.filter_isNamedBy_eq_self (h : AllOf rules fs) (hr : ∀ rule ∈ rules, (rule.finding "").IsNamedBy patterns) :
    fs.filter (fun f => f.IsNamedBy patterns) = fs := by
  refine List.filter_eq_self.2 fun f hf => ?_
  obtain ⟨rule, hrule, hof⟩ := h f hf
  rw [decide_eq_true_iff, hof.isNamedBy_iff]
  exact hr rule hrule

end Finding

/-! ## Names of rules -/

theorem Finding.isNamedBy_code_iff {f : Finding} (rule : Rule) : f.IsNamedBy [rule.code] ↔ f.rule = rule.code := by
  have hslash : '/' ∈ rule.code.toList := by
    cases rule <;> decide
  simp [IsNamedBy, hslash]

theorem Rule.isNamedBy_code_iff {rule named : Rule} : (rule.finding "").IsNamedBy [named.code] ↔ rule = named := by
  rw [Finding.isNamedBy_code_iff]
  exact code_injective.eq_iff

/-- The family of the findings about a header names its rules and no others. -/
theorem Header.isNamedBy_family_iff {rule : Rule} :
    (rule.finding "").IsNamedBy ["header"] ↔ rule ∈ lineRules ++ fieldRules := by
  have hall : ∀ rule ∈ Rule.all, (rule.finding "").IsNamedBy ["header"] ↔ rule ∈ lineRules ++ fieldRules := by
    decide
  exact hall rule (Rule.mem_all rule)

namespace Check

/-- What names the rules of a check: their family, or the code of the only rule if the family has rules of other checks. -/
def pattern : Check → String
  | name => "name"
  | description => "description"
  | allowedTools => "tools"
  | bodySize => "body/too-long"
  | pathSeparators => "body/backslash-path"
  | timeSensitive => "body/time-sensitive"
  | references => "references"

/-- The pattern of a check names its rules and no others. -/
theorem isNamedBy_pattern_iff {check : Check} {rule : Rule} :
    (rule.finding "").IsNamedBy [check.pattern] ↔ rule ∈ check.rules := by
  have hall : ∀ check ∈ all, ∀ rule ∈ Rule.all, (rule.finding "").IsNamedBy [check.pattern] ↔ rule ∈ check.rules := by
    decide
  exact hall check (mem_all check) rule (Rule.mem_all rule)

/-- When all other checks give nothing, the checks together give what one of them gives. -/
theorem flatMap_all_eq {check : Check} {g : Check → List Finding} (h : ∀ other, other ≠ check → g other = []) :
    all.flatMap g = g check := by
  cases check <;> simp [all, h]

end Check

/-! ## The named part of a report -/

/-- The findings of a report whose rules are named by patterns, by their codes or by their families. -/
def Report.named (r : Report) (patterns : List String) : List Finding :=
  r.findings.filter fun f => f.IsNamedBy patterns

namespace Extraction

/-- The named findings of a report are those that are left of the named ones among all findings. -/
theorem named_report (e : Extraction) (config : Config) (present : String → Bool) (patterns : List String) :
    (e.report config present).named patterns =
      ((e.allFindings present config).filter fun f => f.IsNamedBy patterns).filter (Report.keeps config.disable) := by
  rw [report_eq, Report.named, Report.withoutDisabled, List.filter_filter, List.filter_filter]
  exact List.filter_congr fun f _ => Bool.and_comm _ _

variable (d : Document) (config : Config) (present : String → Bool) {patterns : List String}

/-- When patterns name rules of one check only, the named part is left of what that check finds. -/
theorem named_report_of_check {check : Check} (h : ∀ rule : Rule, (rule.finding "").IsNamedBy patterns → rule ∈ check.rules) :
    ((ofDocument d).report config present).named patterns =
      ((Check.run ((ofDocument d).context config present) check).filter fun f => f.IsNamedBy patterns).filter
        (Report.keeps config.disable) := by
  have hheader : (ofDocument d).findings.filter (fun f => f.IsNamedBy patterns) = [] :=
    (Header.allOf_findings_ofDocument d).filter_isNamedBy_eq_nil fun rule hr hnamed =>
      Check.notMem_headerRules_of_mem_rules (h rule hnamed) hr
  have hothers : ∀ other, other ≠ check →
      (Check.run ((ofDocument d).context config present) other).filter (fun f => f.IsNamedBy patterns) = [] :=
    fun other hne => (Check.allOf_run _ other).filter_isNamedBy_eq_nil fun rule hr hnamed =>
      hne (Check.eq_of_mem_rules hr (h rule hnamed))
  rw [named_report, allFindings, List.filter_append, hheader, List.nil_append, List.filter_flatMap,
    Check.flatMap_all_eq hothers]

/-- When patterns name rules of the header only, the named part is left of what is found when the header is read. -/
theorem named_report_of_header
    (h : ∀ rule : Rule, (rule.finding "").IsNamedBy patterns → rule ∈ Header.lineRules ++ Header.fieldRules) :
    ((ofDocument d).report config present).named patterns =
      ((ofDocument d).findings.filter fun f => f.IsNamedBy patterns).filter (Report.keeps config.disable) := by
  have hchecks : ∀ check ∈ Check.all,
      (Check.run ((ofDocument d).context config present) check).filter (fun f => f.IsNamedBy patterns) = [] :=
    fun check _ => (Check.allOf_run _ check).filter_isNamedBy_eq_nil fun rule hr hnamed =>
      Check.notMem_headerRules_of_mem_rules hr (h rule hnamed)
  rw [named_report, allFindings, List.filter_append, List.filter_flatMap, List.flatMap_eq_nil_iff.2 hchecks, List.append_nil]

/-- The part of a report that the pattern of a check names is what the check finds, without the disabled findings. -/
theorem named_report_pattern (check : Check) : ((ofDocument d).report config present).named [check.pattern] =
    (Check.run ((ofDocument d).context config present) check).filter (Report.keeps config.disable) := by
  rw [named_report_of_check d config present fun rule hnamed => Check.isNamedBy_pattern_iff.1 hnamed,
    (Check.allOf_run _ check).filter_isNamedBy_eq_self fun rule hr => Check.isNamedBy_pattern_iff.2 hr]

/-- The part of a report about the header is what is found when the header is read, without the disabled findings. -/
theorem named_report_header : ((ofDocument d).report config present).named ["header"] =
    (ofDocument d).findings.filter (Report.keeps config.disable) := by
  rw [named_report_of_header d config present fun rule hnamed => Header.isNamedBy_family_iff.1 hnamed,
    (Header.allOf_findings_ofDocument d).filter_isNamedBy_eq_self fun rule hr => Header.isNamedBy_family_iff.2 hr]

end Extraction

end SkillLint
