import SkillLint.Proofs.Package
import SkillLint.Proofs.Report
import SkillLint.Proofs.Text.Position

/-!
# The lines that the size of a body counts

The body of a document is its lines behind the header, joined into one text, and the check of its size splits that text again.
So it counts the lines of the document, except that an empty line at the end is not among them.
-/

namespace SkillLint

/-- The number of body lines of a document, without an empty line at the end. -/
def Document.countedLines (d : Document) : Nat :=
  if d.body.getLast? = some [] then d.body.length - 1 else d.body.length

namespace Check

/-- The finding about a body with a number of lines, where the settings allow fewer. -/
def bodyTooLong (count most : Nat) : Finding :=
  Rule.bodyTooLong.finding
    ("Body is " ++ toString count ++ " lines (recommended maximum " ++ toString most
      ++ "); move detail into referenced files")

/-- The check of the size finds that there are more counted lines than the settings allow, and says how many there are. -/
theorem mem_run_bodySize_iff {c : Context} {d : Document} (hbody : c.body = d.bodyText) (hls : ∀ l ∈ d.body, '\n' ∉ l)
    {f : Finding} : f ∈ run c .bodySize ↔
      c.config.thresholds.maxBodyLines < d.countedLines ∧
        f = bodyTooLong d.countedLines c.config.thresholds.maxBodyLines := by
  have hcount : bodyLines c.body = d.countedLines := by
    rw [bodyLines, hbody, Document.bodyText, String.toList_ofList, Text.length_lines_joinLines hls, Document.countedLines]
  rw [run, bodySizeFindings, hcount, Finding.mem_listIf, decide_eq_true_iff, bodyTooLong]

end Check

/-- With no rule disabled, the report on a package has a finding about the size of the body exactly when the document has more
body lines than the settings allow, an empty line at the end not counted; the finding states that number of lines. -/
theorem Package.validate_bodySize (t : FileTree) (p : Package) (config : Config) (hd : config.disable = [])
    (h : 2 ≤ (Text.lines p.content.toList).countP Document.isDelimiter) :
    ∃ (d : Document) (report : Report), d.IsCutOf (Text.lines p.content.toList) ∧ p.validate t config = .ok report ∧
      ((∃ f ∈ report.findings, f.rule = Rule.bodyTooLong.code) ↔ config.thresholds.maxBodyLines < d.countedLines) ∧
      ∀ f ∈ report.findings, f.rule = Rule.bodyTooLong.code →
        f = Check.bodyTooLong d.countedLines config.thresholds.maxBodyLines := by
  obtain ⟨d, hcut, hreport⟩ := p.exists_validate_eq t h
  have hmem : ∀ f, f ∈ ((Extraction.ofDocument d).report config (p.holds t)).findings ∧ f.rule = Rule.bodyTooLong.code ↔
      config.thresholds.maxBodyLines < d.countedLines ∧
        f = Check.bodyTooLong d.countedLines config.thresholds.maxBodyLines := by
    intro f
    rw [Extraction.report_eq, hd, Report.withoutDisabled_nil]
    refine Iff.trans ?_ (Check.mem_run_bodySize_iff (c := (Extraction.ofDocument d).context config (p.holds t)) rfl hcut.newline_not_mem)
    constructor
    · rintro ⟨hf, hc⟩
      have hr : Rule.bodyTooLong ∈ Check.bodySize.rules := List.mem_singleton.2 rfl
      exact Extraction.mem_run_of_mem_allFindings _ hr hc hf
    · intro hf
      obtain ⟨rule, hr, hof⟩ := Check.allOf_run _ .bodySize f hf
      obtain rfl := List.mem_singleton.1 hr
      exact ⟨Extraction.mem_allFindings_of_mem_run _ _ hf, hof.code⟩
  refine ⟨d, _, hcut, hreport config, ⟨?_, fun hlt => ?_⟩, fun f hf hc => ((hmem f).1 ⟨hf, hc⟩).2⟩
  · rintro ⟨f, hf, hc⟩
    exact ((hmem f).1 ⟨hf, hc⟩).1
  · obtain ⟨hf, hc⟩ := (hmem _).2 ⟨hlt, rfl⟩
    exact ⟨_, hf, hc⟩

/-- A body of three lines, of which the second is empty, is longer than two lines. -/
theorem Package.validate_bodySize_three :
    let t : FileTree := ⟨[], []⟩
    let p : Package := ⟨⟨"a"⟩, "---\nname: a\n---\none\n\nthree"⟩
    let config : Config := { thresholds := { maxBodyLines := 2 } }
    config.disable = [] ∧ 2 ≤ (Text.lines p.content.toList).countP Document.isDelimiter ∧
      ∃ report, p.validate t config = .ok report ∧ ∃ f ∈ report.findings, f.rule = Rule.bodyTooLong.code ∧
        f.message = "Body is 3 lines (recommended maximum 2); move detail into referenced files" := by
  intro t p config
  have hdelimiters : 2 ≤ (Text.lines p.content.toList).countP Document.isDelimiter := by decide +kernel
  obtain ⟨d, report, hcut, hreport, hsize, hmessage⟩ := validate_bodySize t p config rfl hdelimiters
  have hd : Document.ofText? p.content = some ⟨[], ["name: a".toList], ["one".toList, [], "three".toList]⟩ := by
    decide +kernel
  obtain rfl := Option.some.inj ((Document.ofText?_eq_some_iff.2 hcut).symm.trans hd)
  obtain ⟨f, hf, hc⟩ := hsize.2 (by decide)
  exact ⟨rfl, hdelimiters, report, hreport, f, hf, hc, by rw [hmessage f hf hc]; decide⟩

/-- A body of two lines, of which the last is empty, is not found to be longer than one line. -/
theorem Package.validate_bodySize_empty_last :
    let t : FileTree := ⟨[], []⟩
    let p : Package := ⟨⟨"pkg"⟩, "---\nname: pdf-forms\ndescription: Fills forms. Use when asked.\n---\nx\n\n"⟩
    let config : Config := { thresholds := { maxBodyLines := 1 } }
    config.disable = [] ∧ (Document.ofText? p.content).map (fun d => d.body.length) = some 2 ∧
      (p.validate t config).toOption.map (fun report => report.findings) = some [] := by
  refine ⟨rfl, ?_, ?_⟩
  · decide +kernel
  · decide +kernel

end SkillLint
