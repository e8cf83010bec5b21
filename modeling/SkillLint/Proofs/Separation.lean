import SkillLint.Proofs.Continued
import SkillLint.Proofs.Renumbering

/-!
# Header and body apart

Header and body are judged independently. What is found about the body depends on the text of the body, and on the lines before it
as far as they count the lines of the body; no defect of the header hides a defect of the body. What is found about the header and
its fields depends on the lines down to the closing delimiter alone.
-/

namespace SkillLint

/-- The families of the findings about the body and its references. -/
def Finding.bodyFamilies : List String :=
  ["body", "references"]

/-- The checks of the body. -/
def Check.ofBody : List Check :=
  [.bodySize, .pathSeparators, .timeSensitive, .references]

/-- The rules about the body are those of its checks. -/
theorem Rule.isNamedBy_bodyFamilies_iff (rule : Rule) :
    (rule.finding "").IsNamedBy Finding.bodyFamilies ↔ ∃ check ∈ Check.ofBody, rule ∈ check.rules := by
  have hall : ∀ rule ∈ all, (rule.finding "").IsNamedBy Finding.bodyFamilies ↔ ∃ check ∈ Check.ofBody, rule ∈ check.rules := by
    decide
  exact hall rule (mem_all rule)

/-- Two reports show the same findings about a body that starts on the line `start` in one document and on `start'` in the other. -/
structure Report.AgreesOnBody (start start' : Nat) (r r' : Report) : Prop where
  /-- What is about a line is as far below the first line of the body in one document as in the other. -/
  findings : r'.named Finding.bodyFamilies =
    (r.named Finding.bodyFamilies).map (Finding.mapLine fun n => n - start + start')
  /-- Nothing is about a line above the body. -/
  below : ∀ f ∈ r.named Finding.bodyFamilies, ∀ n, f.location = some (.line n) → start ≤ n

/-! ## The body -/

namespace Check

/-- What the checks find about the body. -/
def bodyFindings (c : Context) : List Finding :=
  (all.flatMap (run c)).filter fun f => f.IsNamedBy Finding.bodyFamilies

/-- The checks of the body do not look at the fields. -/
theorem run_withFields (c : Context) (fields : HeaderFields) {check : Check} (hc : check ∈ ofBody) :
    run { c with fields := fields } check = run c check := by
  simp only [ofBody, List.mem_cons, List.not_mem_nil, or_false] at hc
  rcases hc with rfl | rfl | rfl | rfl
  · rfl
  · rfl
  · rfl
  · rfl

/-- No other check finds anything about the body. -/
theorem filter_run_eq_nil {check : Check} (hc : check ∉ ofBody) (c : Context) :
    (run c check).filter (fun f => f.IsNamedBy Finding.bodyFamilies) = [] := by
  refine (allOf_run c check).filter_isNamedBy_eq_nil fun rule hrule hnamed => ?_
  obtain ⟨other, hother, hr⟩ := rule.isNamedBy_bodyFamilies_iff.1 hnamed
  exact hc (eq_of_mem_rules hrule hr ▸ hother)

section

variable {σ : Nat → Nat} {c c' : Context} (hbody : c'.body = c.body) (hconfig : c'.config = c.config)
  (hpresent : c'.present = c.present) (hstart : ∀ i, σ (c.bodyStart + i) = c'.bodyStart + i)

include hbody hconfig hpresent hstart

/-- About the same body a check finds the same, but for the numbers of the lines. -/
theorem filter_run_mapLines (check : Check) :
    (run c' check).filter (fun f => f.IsNamedBy Finding.bodyFamilies) =
      ((run c check).filter fun f => f.IsNamedBy Finding.bodyFamilies).map (Finding.mapLine σ) := by
  by_cases hc : check ∈ ofBody
  · -- With the fields of the other context nothing but the first line of the body is different.
    have hfields : { c' with fields := c.fields }.fields = c.fields := rfl
    have hrun : run { c' with fields := c.fields } check = (run c check).map (Finding.mapLine σ) :=
      run_mapLines hfields hbody hconfig hpresent hstart check
    rw [← run_withFields c' c.fields hc, hrun, List.filter_map]
    rfl
  · rw [filter_run_eq_nil hc, filter_run_eq_nil hc, List.map_nil]

/-- About the same body the checks find the same, but for the numbers of the lines. -/
theorem bodyFindings_mapLines : bodyFindings c' = (bodyFindings c).map (Finding.mapLine σ) := by
  rw [bodyFindings, bodyFindings, List.filter_flatMap, List.filter_flatMap, List.map_flatMap,
    funext (filter_run_mapLines hbody hconfig hpresent hstart)]

end

/-- What is found about the body is about lines from its first line on. -/
theorem bodyStart_le {c : Context} {f : Finding} (hf : f ∈ bodyFindings c) {n : Nat} (hn : f.location = some (.line n)) :
    c.bodyStart ≤ n := by
  have hmoved : bodyFindings c = (bodyFindings { c with bodyStart := 0 }).map (Finding.mapLine (c.bodyStart + ·)) := by
    refine bodyFindings_mapLines rfl rfl rfl fun i => ?_
    simp
  rw [hmoved] at hf
  obtain ⟨g, -, rfl⟩ := List.mem_map.1 hf
  obtain ⟨k, -, hk⟩ := Option.map_eq_some_iff.1 hn
  cases k with
  | field key => exact nomatch hk
  | line k =>
    injection hk with hk
    rw [← hk]
    exact Nat.le_add_right _ _

end Check

namespace Extraction

/-- The part of a report about the body is what the checks find about it, without the disabled findings. -/
theorem named_report_body (d : Document) (config : Config) (present : String → Bool) :
    ((ofDocument d).report config present).named Finding.bodyFamilies =
      (Check.bodyFindings ((ofDocument d).context config present)).filter (Report.keeps config.disable) := by
  have hheader : (ofDocument d).findings.filter (fun f => f.IsNamedBy Finding.bodyFamilies) = [] := by
    refine (Header.allOf_findings_ofDocument d).filter_isNamedBy_eq_nil fun rule hrule hnamed => ?_
    obtain ⟨check, -, hcheck⟩ := rule.isNamedBy_bodyFamilies_iff.1 hnamed
    exact Check.notMem_headerRules_of_mem_rules hcheck hrule
  rw [named_report, allFindings, List.filter_append, hheader, List.nil_append, Check.bodyFindings]

/-- Reports agree on the same body. -/
theorem agreesOnBody_report {d d' : Document} (hbody : d'.bodyText = d.bodyText) (config : Config) (present : String → Bool) :
    Report.AgreesOnBody d.bodyStart d'.bodyStart ((ofDocument d).report config present)
      ((ofDocument d').report config present) := by
  refine ⟨?_, fun f hf n hn => ?_⟩
  · have hmoved : Check.bodyFindings ((ofDocument d').context config present) =
        (Check.bodyFindings ((ofDocument d).context config present)).map
          (Finding.mapLine fun n => n - d.bodyStart + d'.bodyStart) := by
      refine Check.bodyFindings_mapLines hbody rfl rfl fun i => ?_
      have hstart : ((ofDocument d).context config present).bodyStart = d.bodyStart := rfl
      have hstart' : ((ofDocument d').context config present).bodyStart = d'.bodyStart := rfl
      omega
    rw [named_report_body, named_report_body, hmoved, List.filter_map]
    rfl
  · rw [named_report_body] at hf
    exact Check.bodyStart_le (List.mem_filter.1 hf).1 hn

end Extraction

/-! ## The header -/

/-- Documents that differ in their body lines have the same header, and the same findings about it. -/
theorem Extraction.ofDocument_withBody (d : Document) (body : List (List Char)) :
    (ofDocument { d with body := body }).fields = (ofDocument d).fields ∧
      (ofDocument { d with body := body }).findings = (ofDocument d).findings :=
  ⟨rfl, rfl⟩

/-- Lines with two delimiters are cut at them, whatever is below. -/
theorem Document.exists_isCutOf_front {front : List (List Char)} (h : 2 ≤ front.countP isDelimiter) :
    ∃ d : Document, ∀ below, IsCutOf { d with body := d.body ++ below } (front ++ below) := by
  cases hd : ofLines? front with
  | none => exact absurd (ofLines?_eq_none_iff.1 hd) (Nat.not_lt.2 h)
  | some d =>
    obtain ⟨opening, closing, rfl, ho, hc, hn⟩ := ofLines?_eq_some_iff.1 hd
    refine ⟨d, fun below => ⟨opening, closing, ?_, ho, hc, hn⟩⟩
    simp only [List.append_assoc, List.cons_append]

theorem Extraction.exists_isCutOf {content : String} {e : Extraction} (h : ofText? content = some e) :
    ∃ d : Document, d.IsCutOf (Text.lines content.toList) ∧ ofDocument d = e := by
  obtain ⟨d, hd, he⟩ := Option.map_eq_some_iff.1 h
  exact ⟨d, Document.ofText?_eq_some_iff.1 hd, he⟩

namespace Package

/-- Under whatever settings and in whatever file tree, header and body are judged independently. When two documents have the same
body, the findings about it are the same, each as far below the first line of the body as in the other document. When two
documents have the same lines down to the closing delimiter, the findings about the header and its fields are the same. -/
theorem validate_separate (t : FileTree) (root : Path) (config : Config) :
    (∀ content content' e e', Extraction.ofText? content = some e → Extraction.ofText? content' = some e' → e'.body = e.body →
      ∃ report report', validate t ⟨root, content⟩ config = .ok report ∧ validate t ⟨root, content'⟩ config = .ok report' ∧
        Report.AgreesOnBody e.bodyStart e'.bodyStart report report') ∧
    ∀ (content content' : String) (front below below' : List (List Char)),
      Text.lines content.toList = front ++ below → Text.lines content'.toList = front ++ below' →
      2 ≤ front.countP Document.isDelimiter →
        ∃ report report', validate t ⟨root, content⟩ config = .ok report ∧ validate t ⟨root, content'⟩ config = .ok report' ∧
          report'.named Finding.headerFamilies = report.named Finding.headerFamilies := by
  refine ⟨fun content content' e e' he he' hbody => ?_, fun content content' front below below' hlines hlines' hfront => ?_⟩
  · obtain ⟨d, hcut, rfl⟩ := Extraction.exists_isCutOf he
    obtain ⟨d', hcut', rfl⟩ := Extraction.exists_isCutOf he'
    exact ⟨_, _, validateText_of_isCutOf hcut config _, validateText_of_isCutOf hcut' config _,
      Extraction.agreesOnBody_report hbody config _⟩
  · obtain ⟨d, hcut⟩ := Document.exists_isCutOf_front hfront
    have hcutBelow := hcut below
    have hcutBelow' := hcut below'
    rw [← hlines] at hcutBelow
    rw [← hlines'] at hcutBelow'
    obtain ⟨hfields, hfindings⟩ := Extraction.ofDocument_withBody d (d.body ++ below)
    obtain ⟨hfields', hfindings'⟩ := Extraction.ofDocument_withBody d (d.body ++ below')
    exact ⟨_, _, validateText_of_isCutOf hcutBelow config _, validateText_of_isCutOf hcutBelow' config _,
      Extraction.named_report_eq_of_fields (hfields'.trans hfields.symm) (hfindings'.trans hfindings.symm) config _ _⟩

/-- A header with three defects, and one with none and a line before it, over the same body: the findings about the body are two
lines further down. With another body the first header has its defects still. -/
theorem validate_separate_defects :
    let t : FileTree := ⟨[], []⟩
    let content := "---\nname: A\nfoo\n---\nSee docs\\x [x](y)\nbefore 2020"
    let sound := "intro\n---\nname: a\ndescription: Use when b.\nlicense: MIT\n---\nSee docs\\x [x](y)\nbefore 2020"
    let bare := "---\nname: A\nfoo\n---\n"
    ∃ report report' report'', validate t ⟨⟨"a"⟩, content⟩ {} = .ok report ∧ validate t ⟨⟨"a"⟩, sound⟩ {} = .ok report' ∧
      validate t ⟨⟨"a"⟩, bare⟩ {} = .ok report'' ∧
      (report.named Finding.bodyFamilies).map (fun f => (f.rule, f.location)) =
        [("body/backslash-path", some (.line 5)), ("body/time-sensitive", some (.line 6)),
          ("references/missing", some (.line 5))] ∧
      report'.findings = report'.named Finding.bodyFamilies ∧
      Report.AgreesOnBody 5 7 report report' ∧
      report''.findings.map Finding.rule = ["header/malformed-line", "header/missing-description", "name/invalid-chars"] ∧
      report''.named Finding.headerFamilies = report.named Finding.headerFamilies := by
  intro t content sound bare
  obtain ⟨hbody, hheader⟩ := validate_separate t ⟨"a"⟩ {}
  have hread : (Extraction.ofText? content).map (fun e => (e.body, e.bodyStart)) =
      some ("See docs\\x [x](y)\nbefore 2020", 5) := by decide
  have hread' : (Extraction.ofText? sound).map (fun e => (e.body, e.bodyStart)) =
      some ("See docs\\x [x](y)\nbefore 2020", 7) := by decide
  obtain ⟨e, he, hstart⟩ := Option.map_eq_some_iff.1 hread
  obtain ⟨e', he', hstart'⟩ := Option.map_eq_some_iff.1 hread'
  injection hstart with htext hstart
  injection hstart' with htext' hstart'
  obtain ⟨report, report', hreport, hreport', hagree⟩ := hbody content sound e e' he he' (htext'.trans htext.symm)
  obtain ⟨again, report'', hagain, hreport'', hsame⟩ := hheader content bare
    ["---".toList, "name: A".toList, "foo".toList, "---".toList] ["See docs\\x [x](y)".toList, "before 2020".toList] []
    (by decide) (by decide) (by decide)
  rw [hreport] at hagain
  injection hagain with hagain
  have hfound : (validate t ⟨⟨"a"⟩, content⟩ {}).toOption.map (fun r =>
      (r.named Finding.bodyFamilies).map fun f => (f.rule, f.location)) =
      some [("body/backslash-path", some (.line 5)), ("body/time-sensitive", some (.line 6)),
        ("references/missing", some (.line 5))] := by decide
  have hfound' : (validate t ⟨⟨"a"⟩, sound⟩ {}).toOption.map (fun r => decide (r.findings = r.named Finding.bodyFamilies)) =
      some true := by decide
  have hfound'' : (validate t ⟨⟨"a"⟩, bare⟩ {}).toOption.map (fun r => r.findings.map Finding.rule) =
      some ["header/malformed-line", "header/missing-description", "name/invalid-chars"] := by decide
  rw [hreport] at hfound
  rw [hreport'] at hfound'
  rw [hreport''] at hfound''
  rw [hstart, hstart'] at hagree
  exact ⟨report, report', report'', hreport, hreport', hreport'', Option.some.inj hfound,
    of_decide_eq_true (Option.some.inj hfound'), hagree, Option.some.inj hfound'', hagain ▸ hsame⟩

end Package

end SkillLint
