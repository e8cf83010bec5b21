import Mathlib.Data.List.Basic
import Mathlib.Data.List.Flatten
import SkillLint.Proofs.Fault
import SkillLint.Proofs.Markdown.Continued
import SkillLint.Proofs.Named

/-!
# Documents that go on

What putting a line feed and more behind a document changes in the report on it. The delimiters and the header stay, and with
them the findings about the header and the fields. The first backslash that separates path segments stays, since the search looks
at one line after the other, and so do the first time anchors. The references stay, except those of links that a link runs over
which ends in the text that was put behind.
-/

namespace SkillLint

/-! ## The longer document -/

/-- A document goes on in a longer one: it has the same header, in the same place, and its body lines, of which the last is ended
and has lines below it. -/
structure Document.GoesOn (d longer : Document) : Prop where
  preamble : longer.preamble = d.preamble
  header : longer.header = d.header
  body : d.body = [] ∨ ∃ ended more, Text.Ended d.body ended ∧ longer.body = ended ++ more

namespace Document

theorem isDelimiter_append_return (l : List Char) : isDelimiter (l ++ ['\r']) = isDelimiter l := by
  rw [isDelimiter, Text.trim_append_blanks l (List.forall_mem_singleton.2 rfl), isDelimiter]

/-- With a line feed and more behind it a document is cut at the same delimiters. -/
theorem IsCutOf.exists_goesOn {d : Document} {s : List Char} (h : d.IsCutOf (Text.lines s)) (more : List Char) :
    ∃ longer : Document, longer.IsCutOf (Text.lines (s ++ '\n' :: more)) ∧ d.GoesOn longer := by
  obtain ⟨opening, closing, hlines, ho, hc, hn⟩ := h
  have hended := Text.ended_lines s
  have hfront : Text.lines s = (d.preamble ++ opening :: d.header) ++ closing :: d.body := by
    rw [hlines, List.append_assoc, List.cons_append]
  rw [hfront] at hended
  obtain ⟨closing', body, he, hclosing, hbody⟩ := hended.exists_of_append
  have hc' : isDelimiter closing' = true := by
    rcases hclosing with rfl | rfl
    · exact hc
    · rwa [isDelimiter_append_return] at hc
  refine ⟨⟨d.preamble, d.header, body ++ Text.lines more⟩, ⟨opening, closing', ?_, ho, hc', hn⟩, rfl, rfl, ?_⟩
  · rw [Text.lines_append_newline_append, he]
    simp only [List.append_assoc, List.cons_append]
  · exact hbody.imp_right fun hb => ⟨body, _, hb, rfl⟩

variable {d longer : Document}

/-- The body of a document goes on, unless it has no lines. -/
theorem GoesOn.bodyText (h : d.GoesOn longer) : d.bodyText = "" ∨ Text.GoesOn d.bodyText.toList longer.bodyText.toList := by
  rcases h.body with hbody | ⟨ended, more, hended, hbody⟩
  · exact .inl (by rw [Document.bodyText, hbody]; rfl)
  · refine .inr ?_
    rw [Document.bodyText, Document.bodyText, String.toList_ofList, String.toList_ofList, hbody]
    exact hended.goesOn more

/-- The header is read in the same way. -/
theorem GoesOn.ofDocument_eq (h : d.GoesOn longer) :
    (Extraction.ofDocument longer).fields = (Extraction.ofDocument d).fields ∧
      (Extraction.ofDocument longer).findings = (Extraction.ofDocument d).findings ∧
      (Extraction.ofDocument longer).bodyStart = (Extraction.ofDocument d).bodyStart := by
  simp only [Extraction.ofDocument, headerStart, bodyStart, h.preamble, h.header, and_self]

end Document

/-! ## The checks of the longer document -/

namespace Check

variable {d longer : Document} (h : d.GoesOn longer) (config : Config) (present : String → Bool)

/-- The search for backslashes looks at the body lines of a document. -/
theorem findBackslashPath_bodyText (hls : ∀ l ∈ d.body, '\n' ∉ l) : findBackslashPath d.bodyText = firstSeparator? 0 d.body := by
  rw [findBackslashPath, Document.bodyText, String.toList_ofList, firstSeparator?_lines_joinLines hls]

/-- The checks of the fields look at the fields and the settings. -/
theorem run_eq_of_fields {c c' : Context} (hfields : c'.fields = c.fields) (hconfig : c'.config = c.config) {check : Check}
    (hc : check = .name ∨ check = .description ∨ check = .allowedTools) : run c' check = run c check := by
  rcases hc with rfl | rfl | rfl
  · simp only [run, nameFindings, hfields, hconfig]
  · simp only [run, descriptionFindings, hfields, hconfig]
  · simp only [run, toolsFindings, hfields, hconfig]

include h

/-- The checks of the fields find the same. -/
theorem run_eq_of_goesOn {check : Check} (hc : check = .name ∨ check = .description ∨ check = .allowedTools) :
    run ((Extraction.ofDocument longer).context config present) check =
      run ((Extraction.ofDocument d).context config present) check := by
  have hfields : ((Extraction.ofDocument longer).context config present).fields =
      ((Extraction.ofDocument d).context config present).fields := h.ofDocument_eq.1
  exact run_eq_of_fields hfields rfl hc

/-- What is found about a backslash stays. -/
theorem pathSeparators_sublist_of_goesOn (hls : ∀ l ∈ d.body, '\n' ∉ l) (hls' : ∀ l ∈ longer.body, '\n' ∉ l) :
    (run ((Extraction.ofDocument d).context config present) .pathSeparators).Sublist
      (run ((Extraction.ofDocument longer).context config present) .pathSeparators) := by
  obtain ⟨-, -, hstart⟩ := h.ofDocument_eq
  have hbody : ((Extraction.ofDocument d).context config present).body = d.bodyText := rfl
  have hbody' : ((Extraction.ofDocument longer).context config present).body = longer.bodyText := rfl
  rw [run, run, pathSeparatorFindings, pathSeparatorFindings, hbody, hbody', findBackslashPath_bodyText hls,
    findBackslashPath_bodyText hls']
  cases hfound : firstSeparator? 0 d.body with
  | none => exact List.nil_sublist _
  | some found =>
    rcases h.body with hempty | ⟨ended, more, hended, hmore⟩
    · rw [hempty] at hfound
      exact absurd hfound (by simp [firstSeparator?])
    · rw [hmore, firstSeparator?_of_ended hended more hfound]
      simp only [Context.documentLine, Extraction.context, hstart]
      exact List.Sublist.refl _

/-- What is found about wording stays. -/
theorem timeSensitive_sublist_of_goesOn :
    (run ((Extraction.ofDocument d).context config present) .timeSensitive).Sublist
      (run ((Extraction.ofDocument longer).context config present) .timeSensitive) := by
  obtain ⟨-, -, hstart⟩ := h.ofDocument_eq
  rw [run, run, timeSensitiveFindings, timeSensitiveFindings, List.filterMap_eq_flatMap_toList,
    List.filterMap_eq_flatMap_toList]
  refine List.Sublist.flatMap_right _ fun lead _ => ?_
  have hbody : ((Extraction.ofDocument d).context config present).body = d.bodyText := rfl
  have hbody' : ((Extraction.ofDocument longer).context config present).body = longer.bodyText := rfl
  rw [anchorFinding?, anchorFinding?, hbody, hbody']
  cases hanchor : Wording.firstAnchor? lead d.bodyText.toList with
  | none => exact List.nil_sublist _
  | some anchor =>
    rcases h.bodyText with hempty | hgoes
    · rw [hempty] at hanchor
      exact absurd hanchor (by simp [Wording.firstAnchor?, Text.occurrences, Text.occurrencesFrom])
    · obtain ⟨hfirst, hline⟩ := Wording.firstAnchor?_of_goesOn hgoes hanchor
      rw [hfirst, Option.map_some, Option.map_some, hline]
      simp only [Context.documentLine, Extraction.context, hstart]
      exact List.Sublist.refl _

/-- What is found about a reference stays, unless a link runs over the place of the link that makes the reference. -/
theorem references_of_goesOn {f : Finding} (hf : f ∈ run ((Extraction.ofDocument d).context config present) .references) :
    f ∈ run ((Extraction.ofDocument longer).context config present) .references ∨
      ∃ o ∈ Text.occurrences Markdown.readLink d.bodyText.toList,
        f ∈ checkReference ((Extraction.ofDocument d).context config present) (Markdown.referenceOf d.bodyText.toList o) ∧
          Markdown.RunsOver d.bodyText.toList longer.bodyText.toList o.start := by
  obtain ⟨-, -, hstart⟩ := h.ofDocument_eq
  obtain ⟨r, hr, hf⟩ := List.mem_flatMap.1 hf
  have hr : r ∈ Markdown.references d.bodyText := hr
  rcases h.bodyText with hempty | hgoes
  · have hnone : Markdown.references "" = [] := by decide
    rw [hempty, hnone] at hr
    exact absurd hr List.not_mem_nil
  · rcases Markdown.mem_references_of_goesOn hgoes hr with hstay | ⟨o, ho, rfl, hover⟩
    · refine .inl (List.mem_flatMap.2 ⟨r, hstay, ?_⟩)
      simp only [checkReference, Context.documentLine, Extraction.context, hstart] at hf ⊢
      exact hf
    · exact .inr ⟨o, ho, hf, hover⟩

end Check

/-! ## The rules that go on -/

namespace Finding

/-- The families of the findings about the header and its fields. -/
def headerFamilies : List String :=
  ["header", "name", "description", "tools"]

/-- The rules about lines of the body that depend on nothing below the line. -/
def lineRules : List String :=
  ["body/backslash-path", "body/time-sensitive"]

end Finding

/-! ## The findings about the header and its fields -/

/-- Of the findings about the header and its fields a check makes the same when the fields are the same. -/
theorem Check.filter_run_eq_of_fields {c c' : Context} (hfields : c'.fields = c.fields) (hconfig : c'.config = c.config)
    (check : Check) :
    (run c' check).filter (fun f => f.IsNamedBy Finding.headerFamilies) =
      (run c check).filter fun f => f.IsNamedBy Finding.headerFamilies := by
  by_cases hc : check = .name ∨ check = .description ∨ check = .allowedTools
  · rw [run_eq_of_fields hfields hconfig hc]
  · have hall : ∀ check ∈ all, ¬(check = .name ∨ check = .description ∨ check = .allowedTools) →
        ∀ rule ∈ check.rules, ¬(rule.finding "").IsNamedBy Finding.headerFamilies := by
      decide
    have hrules := hall check (mem_all check) hc
    rw [(allOf_run _ check).filter_isNamedBy_eq_nil hrules, (allOf_run _ check).filter_isNamedBy_eq_nil hrules]

/-- Reports agree on the header and its fields when the same is read from the headers. -/
theorem Extraction.named_report_eq_of_fields {e e' : Extraction} (hfields : e'.fields = e.fields)
    (hfindings : e'.findings = e.findings) (config : Config) (present present' : String → Bool) :
    (e'.report config present').named Finding.headerFamilies = (e.report config present).named Finding.headerFamilies := by
  have hchecks : ∀ check, (Check.run (e'.context config present') check).filter (fun f => f.IsNamedBy Finding.headerFamilies) =
      (Check.run (e.context config present) check).filter fun f => f.IsNamedBy Finding.headerFamilies :=
    Check.filter_run_eq_of_fields hfields rfl
  have hall : (e'.allFindings present' config).filter (fun f => f.IsNamedBy Finding.headerFamilies) =
      (e.allFindings present config).filter fun f => f.IsNamedBy Finding.headerFamilies := by
    rw [allFindings, allFindings, List.filter_append, List.filter_append, List.filter_flatMap, List.filter_flatMap,
      hfindings, funext hchecks]
  rw [named_report, named_report, hall]

/-! ## The report on the longer document -/

section

variable {d longer : Document} (h : d.GoesOn longer) (config : Config) (present : String → Bool)

include h

/-- The findings of a check about the header, its fields and lines of the body stay. -/
theorem Check.filter_run_sublist_of_goesOn (hls : ∀ l ∈ d.body, '\n' ∉ l) (hls' : ∀ l ∈ longer.body, '\n' ∉ l)
    (check : Check) :
    ((run ((Extraction.ofDocument d).context config present) check).filter
        fun f => f.IsNamedBy (Finding.headerFamilies ++ Finding.lineRules)).Sublist
      (run ((Extraction.ofDocument longer).context config present) check) := by
  have hgone : (∀ rule ∈ check.rules, ¬(rule.finding "").IsNamedBy (Finding.headerFamilies ++ Finding.lineRules)) →
      ((run ((Extraction.ofDocument d).context config present) check).filter
        fun f => f.IsNamedBy (Finding.headerFamilies ++ Finding.lineRules)).Sublist
      (run ((Extraction.ofDocument longer).context config present) check) := fun hrules => by
    rw [(allOf_run _ check).filter_isNamedBy_eq_nil hrules]
    exact List.nil_sublist _
  cases check with
  | name => exact run_eq_of_goesOn h config present (.inl rfl) ▸ List.filter_sublist
  | description => exact run_eq_of_goesOn h config present (.inr (.inl rfl)) ▸ List.filter_sublist
  | allowedTools => exact run_eq_of_goesOn h config present (.inr (.inr rfl)) ▸ List.filter_sublist
  | bodySize => exact hgone (by decide)
  | pathSeparators => exact List.filter_sublist.trans (pathSeparators_sublist_of_goesOn h config present hls hls')
  | timeSensitive => exact List.filter_sublist.trans (timeSensitive_sublist_of_goesOn h config present)
  | references => exact hgone (by decide)

/-- The two reports agree on the header and its fields. -/
theorem Extraction.named_report_eq_of_goesOn :
    ((ofDocument d).report config present).named Finding.headerFamilies =
      ((ofDocument longer).report config present).named Finding.headerFamilies := by
  obtain ⟨hfields, hfindings, -⟩ := h.ofDocument_eq
  exact (named_report_eq_of_fields hfields hfindings config present present).symm

/-- The findings of the report about the header, its fields and lines of the body are findings of the longer report. -/
theorem Extraction.named_report_sublist_of_goesOn (hls : ∀ l ∈ d.body, '\n' ∉ l) (hls' : ∀ l ∈ longer.body, '\n' ∉ l) :
    (((ofDocument d).report config present).named (Finding.headerFamilies ++ Finding.lineRules)).Sublist
      ((ofDocument longer).report config present).findings := by
  obtain ⟨-, hfindings, -⟩ := h.ofDocument_eq
  rw [named_report, report_eq]
  refine List.Sublist.filter _ ?_
  rw [allFindings, allFindings, List.filter_append, List.filter_flatMap, hfindings]
  exact List.filter_sublist.append
    (List.Sublist.flatMap_right _ fun check _ => Check.filter_run_sublist_of_goesOn h config present hls hls' check)

end

namespace Package

/-- A package with a line feed and more behind its document. -/
def extend (p : Package) (more : String) : Package :=
  { p with content := p.content ++ "\n" ++ more }

/-- Both the package and the extended one are validated, on documents of which one goes on in the other. -/
theorem exists_validate_extend (t : FileTree) (p : Package) (more : String)
    (h : 2 ≤ (Text.lines p.content.toList).countP Document.isDelimiter) :
    ∃ d longer : Document, d.IsCutOf (Text.lines p.content.toList) ∧
      longer.IsCutOf (Text.lines (p.extend more).content.toList) ∧ d.GoesOn longer ∧ ∀ config,
        p.validate t config = .ok ((Extraction.ofDocument d).report config (p.holds t)) ∧
        (p.extend more).validate t config = .ok ((Extraction.ofDocument longer).report config (p.holds t)) := by
  obtain ⟨d, hcut, hreport⟩ := p.exists_validate_eq t h
  obtain ⟨longer, hlonger, hgoes⟩ := hcut.exists_goesOn more.toList
  have hcontent : (p.extend more).content.toList = p.content.toList ++ '\n' :: more.toList := by
    simp [extend]
  rw [← hcontent] at hlonger
  exact ⟨d, longer, hcut, hlonger, hgoes, fun config => ⟨hreport config, validateText_of_isCutOf hlonger config _⟩⟩

/-- When a line feed and more are put behind a document, the findings about the header and its fields are the same, and all of
them and those about backslashes and wording are still in the report, in their order, with their messages and locations. -/
theorem validate_extend (t : FileTree) (p : Package) (more : String) (config : Config)
    (h : 2 ≤ (Text.lines p.content.toList).countP Document.isDelimiter) :
    ∃ report longer : Report, p.validate t config = .ok report ∧ (p.extend more).validate t config = .ok longer ∧
      report.named Finding.headerFamilies = longer.named Finding.headerFamilies ∧
      (report.named (Finding.headerFamilies ++ Finding.lineRules)).Sublist longer.findings := by
  obtain ⟨d, longer, hcut, hlonger, hgoes, hreports⟩ := p.exists_validate_extend t more h
  obtain ⟨hreport, hreport'⟩ := hreports config
  exact ⟨_, _, hreport, hreport', Extraction.named_report_eq_of_goesOn hgoes config _,
    Extraction.named_report_sublist_of_goesOn hgoes config _ hcut.newline_not_mem hlonger.newline_not_mem⟩

/-- A document whose last line has a carriage return at its end and whose wording goes over a line end: what is found about them
stays when a further anchor is put behind. -/
theorem validate_extend_return :
    let t : FileTree := ⟨[], []⟩
    let p : Package := ⟨⟨"a"⟩, "---\nname: A\nvendor: x\n---\nSee docs\\x before\n2024\r"⟩
    2 ≤ (Text.lines p.content.toList).countP Document.isDelimiter ∧
      ∃ report longer : Report, p.validate t {} = .ok report ∧ (p.extend "or before 2019").validate t {} = .ok longer ∧
        (report.named (Finding.headerFamilies ++ Finding.lineRules)).filterMap
            (fun f => f.location.map fun location => (f.rule, location)) =
          [("header/unknown-key", .line 3), ("header/missing-description", .field "description"),
            ("name/invalid-chars", .field "name"), ("body/backslash-path", .line 5), ("body/time-sensitive", .line 5)] ∧
        (report.named (Finding.headerFamilies ++ Finding.lineRules)).Sublist longer.findings := by
  intro t p
  have hdelimiters : 2 ≤ (Text.lines p.content.toList).countP Document.isDelimiter := by decide +kernel
  obtain ⟨report, longer, hreport, hlonger, -, hstay⟩ := validate_extend t p "or before 2019" {} hdelimiters
  have hfound : (p.validate t {}).toOption.map (fun r =>
      (r.named (Finding.headerFamilies ++ Finding.lineRules)).filterMap fun f =>
        f.location.map fun location => (f.rule, location)) =
      some [("header/unknown-key", .line 3), ("header/missing-description", .field "description"),
        ("name/invalid-chars", .field "name"), ("body/backslash-path", .line 5), ("body/time-sensitive", .line 5)] := by
    decide +kernel
  rw [hreport] at hfound
  exact ⟨hdelimiters, report, longer, hreport, hlonger, Option.some.inj hfound, hstay⟩

/-! ## Links that are run over -/

/-- The finding about a missing file that a reference makes has the line of the reference and names the file. -/
theorem eq_of_mem_checkReference {c : Context} {r : Markdown.Reference} {f : Finding} (hf : f ∈ Check.checkReference c r)
    (hrule : f.rule = Rule.referencesMissing.code) :
    f = Rule.referencesMissing.onLine (c.documentLine r.line) ("Referenced file not found: " ++ Check.filePart r.target) := by
  obtain ⟨-, -, ⟨-, rfl⟩ | ⟨-, rfl⟩⟩ := Check.mem_checkReference_iff.1 hf
  · have hcode : Rule.referencesOutsidePackage.code = Rule.referencesMissing.code := hrule
    exact absurd (Rule.code_injective hcode) (by decide)
  · rfl

/-- When a line feed and more are put behind a text, a link that was found is found again exactly when no link runs over its
place: none begins there or before and ends behind the text, which takes a closing parenthesis in what is put behind. So a
reference stays unless a link runs over the place of its first link. When they are put behind a document, an error about a missing
file stays unless a link of the longer body runs over the place of the link that makes it. -/
theorem validate_extend_links (t : FileTree) (p : Package) (config : Config) (body more : String) :
    (∀ o ∈ Text.occurrences Markdown.readLink body.toList,
      (o ∈ Text.occurrences Markdown.readLink (body ++ "\n" ++ more).toList ↔
        ¬Markdown.RunsOver body.toList (body ++ "\n" ++ more).toList o.start)) ∧
    (∀ place, Markdown.RunsOver body.toList (body ++ "\n" ++ more).toList place → ')' ∈ more.toList) ∧
    (∀ r ∈ Markdown.references body, r ∈ Markdown.references (body ++ "\n" ++ more) ∨
      ∃ o ∈ Text.occurrences Markdown.readLink body.toList, Markdown.referenceOf body.toList o = r ∧
        Markdown.RunsOver body.toList (body ++ "\n" ++ more).toList o.start) ∧
    (2 ≤ (Text.lines p.content.toList).countP Document.isDelimiter →
      ∃ (d longer : Document) (report report' : Report), d.IsCutOf (Text.lines p.content.toList) ∧
        longer.IsCutOf (Text.lines (p.extend more).content.toList) ∧ p.validate t config = .ok report ∧
        (p.extend more).validate t config = .ok report' ∧
        ∀ f ∈ report.findings, f.rule = Rule.referencesMissing.code → f ∈ report'.findings ∨
          ∃ o ∈ Text.occurrences Markdown.readLink d.bodyText.toList,
            f = Rule.referencesMissing.onLine (d.bodyStart + (Markdown.referenceOf d.bodyText.toList o).line)
              ("Referenced file not found: " ++ Check.filePart (Markdown.referenceOf d.bodyText.toList o).target) ∧
            Markdown.RunsOver d.bodyText.toList longer.bodyText.toList o.start) := by
  have htext : (body ++ "\n" ++ more).toList = body.toList ++ '\n' :: more.toList := by simp
  have hgoes : Text.GoesOn body.toList (body ++ "\n" ++ more).toList := htext ▸ Text.goesOn_append_newline _ _
  refine ⟨fun o ho => Markdown.mem_occurrences_iff hgoes ho, fun place hover => (htext ▸ hover).closing_mem,
    fun r hr => Markdown.mem_references_of_goesOn hgoes hr, fun h => ?_⟩
  obtain ⟨d, longer, hcut, hlonger, hgoes, hreports⟩ := p.exists_validate_extend t more h
  obtain ⟨hreport, hreport'⟩ := hreports config
  refine ⟨d, longer, _, _, hcut, hlonger, hreport, hreport', fun f hf hrule => ?_⟩
  obtain ⟨hall, hkeeps⟩ := List.mem_filter.1 hf
  have hr : Rule.referencesMissing ∈ Check.references.rules := by decide
  have hrun := Extraction.mem_run_of_mem_allFindings _ hr hrule hall
  rcases Check.references_of_goesOn hgoes config _ hrun with hstay | ⟨o, ho, hf, hover⟩
  · exact .inl (List.mem_filter.2 ⟨Extraction.mem_allFindings_of_mem_run _ _ hstay, hkeeps⟩)
  · exact .inr ⟨o, ho, eq_of_mem_checkReference hf hrule, hover⟩

/-- A link whose target is left open in angle brackets, and behind it a link to a guide: when a link in angle brackets is put
behind them, the first one is read up to its closing bracket and runs over the link to the guide, and the error about the guide
is gone. -/
theorem validate_extend_links_open :
    let t : FileTree := ⟨[], []⟩
    let p : Package := ⟨⟨"a"⟩, "---\nname: a\ndescription: b\n---\nSee [notes](<draft and [guide](guide.md)."⟩
    let body := "See [notes](<draft and [guide](guide.md)."
    let f : Finding := Rule.referencesMissing.onLine 5 "Referenced file not found: guide.md"
    ⟨23, ⟨"guide.md".toList, 8⟩⟩ ∈ Text.occurrences Markdown.readLink body.toList ∧
      Markdown.RunsOver body.toList (body ++ "\n" ++ "[other](<other.md>)").toList 23 ∧
      2 ≤ (Text.lines p.content.toList).countP Document.isDelimiter ∧
      ∃ (d longer : Document) (report report' : Report), p.validate t {} = .ok report ∧
        (p.extend "[other](<other.md>)").validate t {} = .ok report' ∧ f ∈ report.findings ∧ f ∉ report'.findings ∧
        ∃ place, Markdown.RunsOver d.bodyText.toList longer.bodyText.toList place := by
  intro t p body f
  have hmem : ⟨23, ⟨"guide.md".toList, 8⟩⟩ ∈ Text.occurrences Markdown.readLink body.toList := by decide +kernel
  have hlost : ⟨23, ⟨"guide.md".toList, 8⟩⟩ ∉
      Text.occurrences Markdown.readLink (body ++ "\n" ++ "[other](<other.md>)").toList := by decide +kernel
  obtain ⟨hkept, -, -, hreports⟩ := validate_extend_links t p {} body "[other](<other.md>)"
  have hover := Classical.not_not.1 fun hno => hlost ((hkept _ hmem).2 hno)
  have hdelimiters : 2 ≤ (Text.lines p.content.toList).countP Document.isDelimiter := by decide +kernel
  obtain ⟨d, longer, report, report', -, -, hreport, hreport', hstay⟩ := hreports hdelimiters
  have hfound : (p.validate t {}).toOption.map (fun r => decide (f ∈ r.findings)) = some true := by decide +kernel
  have hgone : ((p.extend "[other](<other.md>)").validate t {}).toOption.map (fun r => decide (f ∈ r.findings)) =
      some false := by decide +kernel
  rw [hreport] at hfound
  rw [hreport'] at hgone
  have hf : f ∈ report.findings := of_decide_eq_true (Option.some.inj hfound)
  have hf' : f ∉ report'.findings := of_decide_eq_false (Option.some.inj hgone)
  obtain ⟨o, -, -, hrun⟩ := (hstay f hf rfl).resolve_left hf'
  exact ⟨hmem, hover, hdelimiters, d, longer, report, report', hreport, hreport', hf, hf', o.start, hrun⟩

/-- Putting more behind a text takes the only link in it away. -/
theorem references_extend_lost :
    let body := "See [notes](<draft and [guide](guide.md)."
    Markdown.references body = [⟨"guide.md", 0⟩] ∧
      Markdown.references (body ++ "\n" ++ "[other](<other.md>)") =
        [⟨"draft and [guide](guide.md).\n[other](<other.md", 0⟩] := by
  decide +kernel

end Package

end SkillLint
