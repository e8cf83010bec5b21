import Mathlib.Data.List.Forall2
import Mathlib.Data.List.Induction
import SkillLint.Proofs.Markdown.References
import SkillLint.Proofs.RuleTable
import SkillLint.Proofs.Wording.TimeAnchor

/-!
# The order of a report

A report shows what is found about the header first, and then what each check finds, in the order of the checks. What is found
about lines of the header and about references comes in the order of the lines, and what is found about wording in the order of
the leads. No check hides or moves what another one finds: each part of a report is what its check finds alone.
-/

namespace SkillLint

/-! ## Findings in order -/

namespace Finding

/-- The families and rules in the order in which a report shows their findings. -/
def ranks : List String :=
  ["header", "name", "description", "tools", "body/too-long", "body/backslash-path", "body/time-sensitive", "references"]

/-- The place of a finding's family or rule in that order. -/
def rank (f : Finding) : Nat :=
  ranks.findIdx f.matchesPattern

/-- Whether all findings of a list are about lines, and the lines of any two of them are in the given relation. -/
structure OnLines (r : Nat → Nat → Prop) (fs : List Finding) : Prop where
  located : ∀ f ∈ fs, ∃ number, f.location = some (.line number)
  ordered : fs.Pairwise fun f g => ∀ m n, f.location = some (.line m) → g.location = some (.line n) → r m n

/-- Whether a finding quotes an anchor with the given lead. -/
def Quotes (f : Finding) (lead : Wording.Lead) : Prop :=
  ∃ number phrase, Wording.IsAnchor lead phrase ∧ f = Rule.bodyTimeSensitive.onLine number
    ("Time-sensitive wording '" ++ String.ofList phrase ++ "' will go stale; describe the current behavior instead")

variable {r : Nat → Nat → Prop} {fs gs : List Finding}

theorem OnLines.sublist (h : OnLines r gs) (hs : fs.Sublist gs) : OnLines r fs where
  located f hf := h.located f (hs.subset hf)
  ordered := h.ordered.sublist hs

/-- The rank of a finding is told by the code of its rule. -/
theorem IsOf.rank_eq {f : Finding} {rule : Rule} (h : f.IsOf rule) : f.rank = (rule.finding "").rank := by
  have hmatches : f.matchesPattern = (rule.finding "").matchesPattern := by
    funext pattern
    rw [matchesPattern, matchesPattern, family?, family?, h.code]
    rfl
  rw [rank, rank, hmatches]

end Finding

/-- A report is in order. -/
structure Report.InOrder (r : Report) : Prop where
  /-- The checks are always the same seven. -/
  checks : r.checks =
    ["name", "description", "allowed-tools", "body size", "path separators", "time-sensitive wording", "references"]
  ranked : ∀ f ∈ r.findings, f.rank < Finding.ranks.length
  ordered : r.findings.Pairwise fun f g => f.rank ≤ g.rank
  /-- What is found about the header: lines that come one after the other, and then what is missing, the name first. -/
  header : ∃ lines missing, r.named ["header"] = lines ++ missing ∧ Finding.OnLines (· < ·) lines ∧
    (missing.map Finding.rule).Sublist ["header/missing-name", "header/missing-description"]
  /-- What is found about wording: one finding at most for each lead, in their order. -/
  wording : ∃ leads : List Wording.Lead, leads.Sublist [.before, .after, .asOf, .until] ∧
    List.Forall₂ Finding.Quotes (r.named ["body/time-sensitive"]) leads
  references : Finding.OnLines (· ≤ ·) (r.named ["references"])

/-! ## What is found, in order -/

namespace Header

/-- A finding about a line of a header is on that line. -/
theorem location_of_lineFinding? {above : List (List Char)} {number : Nat} {line : List Char} {f : Finding}
    (h : lineFinding? above number line = some f) : f.location = some (.line number) := by
  rcases cases_of_lineFinding? h with ⟨-, rfl⟩ | ⟨key, -, ⟨-, rfl⟩ | ⟨-, rfl⟩⟩
  · rfl
  · rfl
  · rfl

/-- What is found about the lines of a header comes in the order of the lines, with one finding at most for a line. -/
theorem onLines_lineFindings (number : Nat) (header : List (List Char)) :
    Finding.OnLines (· < ·) (lineFindings number header) ∧
      ∀ f ∈ lineFindings number header, ∀ n, f.location = some (.line n) → n < number + header.length := by
  induction header using List.reverseRecOn with
  | nil =>
    have hnil : lineFindings number [] = [] := rfl
    rw [hnil]
    exact ⟨⟨by simp, List.Pairwise.nil⟩, by simp⟩
  | append_singleton above line ih =>
    obtain ⟨⟨hlocated, hordered⟩, hbelow⟩ := ih
    have hline : ∀ f ∈ (lineFinding? above (number + above.length) line).toList,
        f.location = some (.line (number + above.length)) :=
      fun f hf => location_of_lineFinding? (Option.mem_toList.1 hf)
    rw [lineFindings_append]
    refine ⟨⟨fun f hf => ?_, ?_⟩, fun f hf n hn => ?_⟩
    · rcases List.mem_append.1 hf with hf | hf
      · exact hlocated f hf
      · exact ⟨_, hline f hf⟩
    · refine List.pairwise_append.2 ⟨hordered, ?_, fun f hf g hg m n hm hn => ?_⟩
      · cases lineFinding? above (number + above.length) line with
        | none => exact List.Pairwise.nil
        | some f => exact List.pairwise_singleton _ f
      · rw [hline g hg] at hn
        obtain rfl := Location.line.inj (Option.some.inj hn)
        exact hbelow f hf m hm
    · rw [List.length_append, List.length_singleton]
      rcases List.mem_append.1 hf with hf | hf
      · have hlt := hbelow f hf n hn
        omega
      · rw [hline f hf] at hn
        obtain rfl := Location.line.inj (Option.some.inj hn)
        omega

end Header

namespace Check

/-- What is found about references comes in the order of the lines of their links. -/
theorem onLines_referenceFindings (c : Context) : Finding.OnLines (· ≤ ·) (referenceFindings c) := by
  have hlocated : ∀ r, ∀ f ∈ checkReference c r, f.location = some (.line (c.documentLine r.line)) := by
    intro r f hf
    obtain ⟨-, -, ⟨-, rfl⟩ | ⟨-, rfl⟩⟩ := mem_checkReference_iff.1 hf
    · rfl
    · rfl
  have hsorted : (Markdown.references c.body).Pairwise fun r later => r.line ≤ later.line :=
    (Markdown.pairwise_line_referenceOf c.body.toList).sublist
      ((Markdown.firstOfEach_references c.body).sublist.trans List.filter_sublist)
  refine ⟨fun f hf => ?_, ?_⟩
  · obtain ⟨r, -, hf⟩ := List.mem_flatMap.1 hf
    exact ⟨_, hlocated r f hf⟩
  · rw [referenceFindings, List.pairwise_flatMap]
    constructor
    · intro r _
      refine List.pairwise_of_forall_mem_list fun f hf g hg m n hm hn => ?_
      rw [hlocated r f hf] at hm
      rw [hlocated r g hg] at hn
      obtain rfl := Location.line.inj (Option.some.inj hm)
      exact Nat.le_of_eq (Location.line.inj (Option.some.inj hn))
    · refine hsorted.imp fun {r later} hle f hf g hg m n hm hn => ?_
      rw [hlocated r f hf] at hm
      rw [hlocated later g hg] at hn
      obtain rfl := Location.line.inj (Option.some.inj hm)
      obtain rfl := Location.line.inj (Option.some.inj hn)
      exact Nat.add_le_add_left hle c.bodyStart

/-- The finding that a lead draws quotes an anchor with that lead. -/
theorem quotes_of_anchorFinding? {c : Context} {lead : Wording.Lead} {f : Finding} (h : anchorFinding? c lead = some f) :
    f.Quotes lead := by
  obtain ⟨⟨start, phrase⟩, hanchor, rfl⟩ := Option.map_eq_some_iff.1 h
  obtain ⟨front, rest, previous, size, -, -, hread⟩ := Text.exists_of_mem_occurrences (List.mem_of_mem_head? hanchor)
  obtain ⟨-, -, -, hphrase, -⟩ := Wording.readAnchor_eq_some_iff.1 hread
  exact ⟨_, phrase, hphrase, rfl⟩

/-- What is left of the findings about wording quotes anchors for some of the leads, in their order. -/
theorem exists_leads_of_filter (c : Context) (keep : Finding → Bool) (all : List Wording.Lead) :
    ∃ leads : List Wording.Lead, leads.Sublist all ∧
      List.Forall₂ Finding.Quotes ((all.filterMap (anchorFinding? c)).filter keep) leads := by
  induction all with
  | nil => exact ⟨[], List.Sublist.refl _, List.Forall₂.nil⟩
  | cons lead rest ih =>
    obtain ⟨leads, hsub, hquotes⟩ := ih
    cases hanchor : anchorFinding? c lead with
    | none =>
      rw [List.filterMap_cons_none hanchor]
      exact ⟨leads, hsub.cons lead, hquotes⟩
    | some f =>
      rw [List.filterMap_cons_some hanchor]
      cases hkeep : keep f with
      | false =>
        rw [List.filter_cons_of_neg (by simp [hkeep])]
        exact ⟨leads, hsub.cons lead, hquotes⟩
      | true =>
        rw [List.filter_cons_of_pos hkeep]
        exact ⟨lead :: leads, hsub.cons_cons lead, List.Forall₂.cons (quotes_of_anchorFinding? hanchor) hquotes⟩

end Check

/-! ## The report -/

namespace Extraction

variable (d : Document) (config : Config) (present : String → Bool)

theorem rank_of_mem_findings {f : Finding} (hf : f ∈ (ofDocument d).findings) : f.rank = 0 := by
  have hall : ∀ rule ∈ Header.lineRules ++ Header.fieldRules, (rule.finding "").rank = 0 := by decide
  obtain ⟨rule, hr, hof⟩ := Header.allOf_findings_ofDocument d f hf
  rw [hof.rank_eq, hall rule hr]

/-- What a check finds ranks behind the header, in the place of the check. -/
theorem rank_of_mem_run {c : Context} {check : Check} {f : Finding} (hf : f ∈ Check.run c check) :
    f.rank = Check.all.idxOf check + 1 := by
  have hall : ∀ check ∈ Check.all, ∀ rule ∈ check.rules, (rule.finding "").rank = Check.all.idxOf check + 1 := by
    decide
  obtain ⟨rule, hr, hof⟩ := Check.allOf_run c check f hf
  rw [hof.rank_eq, hall check (Check.mem_all check) rule hr]

/-- All that is found about a document comes in the order of its ranks. -/
theorem pairwise_rank_allFindings :
    ((ofDocument d).allFindings present config).Pairwise fun f g => f.rank ≤ g.rank := by
  have hchecks : Check.all.Pairwise fun check later => Check.all.idxOf check ≤ Check.all.idxOf later := by decide
  refine List.pairwise_append.2 ⟨?_, ?_, fun f hf g _ => ?_⟩
  · refine List.pairwise_of_forall_mem_list fun f hf g hg => ?_
    exact Nat.le_of_eq ((rank_of_mem_findings d hf).trans (rank_of_mem_findings d hg).symm)
  · rw [List.pairwise_flatMap]
    constructor
    · intro check _
      refine List.pairwise_of_forall_mem_list fun f hf g hg => ?_
      exact Nat.le_of_eq ((rank_of_mem_run hf).trans (rank_of_mem_run hg).symm)
    · refine hchecks.imp fun {check later} hle f hf g hg => ?_
      rw [rank_of_mem_run hf, rank_of_mem_run hg]
      exact Nat.succ_le_succ hle
  · rw [rank_of_mem_findings d hf]
    exact Nat.zero_le _

/-- The part of a report that the pattern of a check names is the report of that check alone. -/
theorem named_report_alone (check : Check) : ((ofDocument d).report config present).named [check.pattern] =
    ((Check.runAll ((ofDocument d).context config present) [check]).withoutDisabled config.disable).findings := by
  rw [named_report_pattern, Check.runAll, List.flatMap_singleton, Report.withoutDisabled]

/-- A report is made of what is found when the header is read and of the reports of the checks alone, one behind the other. -/
theorem findings_report_eq : ((ofDocument d).report config present).findings =
    ((ofDocument d).findings.filter (Report.keeps config.disable)) ++ Check.all.flatMap fun check =>
      ((Check.runAll ((ofDocument d).context config present) [check]).withoutDisabled config.disable).findings := by
  rw [report_eq, Report.withoutDisabled, allFindings, List.filter_append, List.filter_flatMap]
  simp only [Check.runAll, List.flatMap_singleton, Report.withoutDisabled]

/-- The report on a document is in order. -/
theorem inOrder_report : ((ofDocument d).report config present).InOrder where
  checks := rfl
  ranked f hf := by
    have hall : ∀ rule ∈ Rule.all, (rule.finding "").rank < Finding.ranks.length := by decide
    obtain ⟨rule, hof⟩ := exists_isOf_of_mem_allFindings d config present (mem_allFindings_of_mem_report _ _ hf)
    rw [hof.rank_eq]
    exact hall rule (Rule.mem_all rule)
  ordered := (pairwise_rank_allFindings d config present).sublist List.filter_sublist
  header := by
    refine ⟨(Header.lineFindings d.headerStart d.header).filter (Report.keeps config.disable),
      (Header.missingFields (Header.fieldsOf d.header)).filter (Report.keeps config.disable), ?_, ?_, ?_⟩
    · rw [named_report_header, ofDocument_eq_meaning, Document.meaning, List.filter_append]
    · exact (Header.onLines_lineFindings d.headerStart d.header).1.sublist List.filter_sublist
    · exact (List.filter_sublist.map Finding.rule).trans (Header.codes_missingFields _)
  wording := by
    have hnamed : ((ofDocument d).report config present).named ["body/time-sensitive"] = _ :=
      named_report_pattern d config present .timeSensitive
    rw [hnamed]
    exact Check.exists_leads_of_filter _ (Report.keeps config.disable) Wording.Lead.all
  references := by
    have hnamed : ((ofDocument d).report config present).named ["references"] = _ :=
      named_report_pattern d config present .references
    rw [hnamed]
    exact (Check.onLines_referenceFindings _).sublist List.filter_sublist

end Extraction

/-- The report on a document with a header is in order. It is made of what is found when the header is read, without the disabled
findings, and of the reports of the seven checks, each made alone on the same context: the part about a check is what that check
reports alone, whatever else is found. -/
theorem Package.validate_order (t : FileTree) (p : Package) (config : Config)
    (h : 2 ≤ (Text.lines p.content.toList).countP Document.isDelimiter) :
    ∃ e report, Extraction.ofText? p.content = some e ∧ p.validate t config = .ok report ∧ report.InOrder ∧
      report.findings = e.findings.filter (Report.keeps config.disable) ++ Check.all.flatMap (fun check =>
        ((Check.runAll (e.context config (p.holds t)) [check]).withoutDisabled config.disable).findings) ∧
      ∀ check : Check, report.named [check.pattern] =
        ((Check.runAll (e.context config (p.holds t)) [check]).withoutDisabled config.disable).findings := by
  obtain ⟨d, hcut, hreport⟩ := p.exists_validate_eq t h
  exact ⟨Extraction.ofDocument d, _, Extraction.ofText?_of_isCutOf hcut, hreport config,
    Extraction.inOrder_report d config (p.holds t), Extraction.findings_report_eq d config (p.holds t),
    Extraction.named_report_alone d config (p.holds t)⟩

/-- A document with something wrong in each part: the parts come in order, with two rules disabled, and the finding about the lead
"before" comes first although its line is the later one. -/
theorem Package.validate_order_parts :
    let t : FileTree := ⟨[], []⟩
    let p : Package := ⟨⟨"a"⟩, "---\nfoo\nvendor: x\nname: A-\n---\nafter 2020 docs\\x [b](../b.md)\nbefore 2021"⟩
    let config : Config := { disable := ["header/unknown-key", "name"] }
    2 ≤ (Text.lines p.content.toList).countP Document.isDelimiter ∧
      ∃ report, p.validate t config = .ok report ∧ report.InOrder ∧
        report.findings.map (fun f => (f.rank, f.rule, f.location)) =
          [(0, "header/malformed-line", some (.line 2)), (0, "header/missing-description", some (.field "description")),
            (1, "name/invalid-chars", some (.field "name")), (5, "body/backslash-path", some (.line 6)),
            (6, "body/time-sensitive", some (.line 7)), (6, "body/time-sensitive", some (.line 6)),
            (7, "references/outside-package", some (.line 6)), (7, "references/missing", some (.line 6))] := by
  intro t p config
  have hdelimiters : 2 ≤ (Text.lines p.content.toList).countP Document.isDelimiter := by decide +kernel
  obtain ⟨e, report, -, hreport, horder, -, -⟩ := validate_order t p config hdelimiters
  have hfound : (p.validate t config).toOption.map (fun r => r.findings.map fun f => (f.rank, f.rule, f.location)) =
      some [(0, "header/malformed-line", some (.line 2)), (0, "header/missing-description", some (.field "description")),
        (1, "name/invalid-chars", some (.field "name")), (5, "body/backslash-path", some (.line 6)),
        (6, "body/time-sensitive", some (.line 7)), (6, "body/time-sensitive", some (.line 6)),
        (7, "references/outside-package", some (.line 6)), (7, "references/missing", some (.line 6))] := by decide +kernel
  rw [hreport] at hfound
  exact ⟨hdelimiters, report, hreport, horder, Option.some.inj hfound⟩

end SkillLint
