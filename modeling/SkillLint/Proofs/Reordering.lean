import Mathlib.Data.List.Induction
import SkillLint.Proofs.Header.Entries
import SkillLint.Proofs.Named
import SkillLint.Proofs.Renumbering

/-!
# Header entries in another order

What changes when the entries of a header, each with the lines below it, are put into another order: nothing but the order of the
findings about them and the numbers of their lines, provided that no key comes twice. The fields, the body and its place stay, so
the checks find the same, and the verdict stays with them.
-/

namespace SkillLint

/-- The finding without the number of its line. -/
def Finding.unnumbered (f : Finding) : Finding :=
  f.mapLine fun _ => 0

/-! ## The header -/

namespace Header

variable {entries entries' : List Entry}

/-- The line of an entry is told by the finding about it only as its number. -/
theorem Entry.map_unnumbered_findings (number : Nat) (e : Entry) :
    (e.findings number).map Finding.unnumbered = e.findings 0 := by
  unfold Entry.findings
  by_cases h : e.key ∈ knownKeys
  · rw [if_pos h, if_pos h, List.map_nil]
  · rw [if_neg h, if_neg h]
    rfl

/-- Entries with different keys draw the findings that each of them draws alone, the numbers of the lines aside. -/
theorem map_lineFindings_linesOf (number : Nat) (h : (entries.map Entry.key).Nodup) :
    (lineFindings number (linesOf entries)).map Finding.unnumbered = entries.flatMap (Entry.findings 0) := by
  induction entries using List.reverseRecOn with
  | nil => rfl
  | append_singleton above e ih =>
    rw [List.map_append, List.nodup_append] at h
    obtain ⟨habove, -, hnew⟩ := h
    have hkey : e.key ∉ keysOf (linesOf above) := by
      rw [keysOf_linesOf]
      intro hm
      exact hnew e.key hm e.key (by simp) rfl
    have hlines : linesOf (above ++ [e]) = linesOf above ++ e.lines := by
      simp only [linesOf, List.flatMap_append, List.flatMap_singleton]
    rw [hlines, lineFindings_append_lines number hkey, List.map_append, ih habove, e.map_unnumbered_findings,
      List.flatMap_append, List.flatMap_singleton]

/-- Entries with different keys draw the same findings in every order, the numbers of the lines aside. -/
theorem perm_lineFindings_linesOf (hp : entries.Perm entries') (h : (entries.map Entry.key).Nodup) (number number' : Nat) :
    ((lineFindings number' (linesOf entries')).map Finding.unnumbered).Perm
      ((lineFindings number (linesOf entries)).map Finding.unnumbered) := by
  have h' : (entries'.map Entry.key).Nodup := (hp.map Entry.key).nodup_iff.1 h
  rw [map_lineFindings_linesOf number h, map_lineFindings_linesOf number' h']
  exact hp.symm.flatMap_right _

end Header

/-! ## The report -/

/-- Reading two documents gives the same, but for the header as it is written, the order of the findings about it and the numbers
of their lines. -/
structure Extraction.Reordered (e e' : Extraction) : Prop where
  fields : e'.fields = e.fields
  body : e'.body = e.body
  bodyStart : e'.bodyStart = e.bodyStart
  findings : (e'.findings.map Finding.unnumbered).Perm (e.findings.map Finding.unnumbered)

/-- Two reports show the same findings and give the same verdict, but for the order of the findings and the numbers of their
lines. -/
structure Report.Reordered (r r' : Report) : Prop where
  checks : r'.checks = r.checks
  passed : r'.passed = r.passed
  exitCode : r'.exitCode = r.exitCode
  findings : (r'.findings.map Finding.unnumbered).Perm (r.findings.map Finding.unnumbered)

/-- A report passes exactly when no finding is an error, the numbers of the lines aside. -/
theorem Report.passed_iff_unnumbered (r : Report) :
    r.passed = true ↔ Finding.ErrorFree (r.findings.map Finding.unnumbered) := by
  have hkeep : ∀ f : Finding, f.unnumbered.isError = f.isError := fun _ => rfl
  rw [passed, errors, List.isEmpty_iff, Finding.filter_isError_eq_nil_iff]
  simp only [Finding.ErrorFree, List.forall_mem_map, hkeep]

/-- Findings in another order, with other line numbers, give the same verdict. -/
theorem Report.Reordered.of_findings {r r' : Report} (hc : r'.checks = r.checks)
    (h : (r'.findings.map Finding.unnumbered).Perm (r.findings.map Finding.unnumbered)) : r.Reordered r' := by
  have hpassed : r'.passed = r.passed := by
    rw [Bool.eq_iff_iff, passed_iff_unnumbered, passed_iff_unnumbered]
    constructor
    · intro hfree f hf
      exact hfree f (h.mem_iff.2 hf)
    · intro hfree f hf
      exact hfree f (h.mem_iff.1 hf)
  exact ⟨hc, hpassed, by rw [Report.exitCode, Report.exitCode, hpassed], h⟩

/-- The reports on two such documents show the same findings and give the same verdict. -/
theorem Extraction.Reordered.report {e e' : Extraction} (h : e.Reordered e') (config : Config) (present : String → Bool) :
    (e.report config present).Reordered (e'.report config present) := by
  have hcontext : e'.context config present = e.context config present := by
    rw [context, h.fields, h.bodyStart, h.body, context]
  have hkeeps : Report.keeps config.disable ∘ Finding.unnumbered = Report.keeps config.disable :=
    funext (Finding.keeps_mapLine _ config.disable)
  have hall : ((e'.allFindings present config).map Finding.unnumbered).Perm
      ((e.allFindings present config).map Finding.unnumbered) := by
    rw [allFindings, allFindings, hcontext, List.map_append, List.map_append]
    exact h.findings.append_right _
  refine Report.Reordered.of_findings rfl ?_
  have hfilter := hall.filter (Report.keeps config.disable)
  rw [List.filter_map, List.filter_map, hkeeps] at hfilter
  exact hfilter

/-! ## Documents -/

/-- Two documents that differ in the order of their header entries, which have different keys, are read alike. -/
theorem Document.reordered_linesOf (d : Document) {entries entries' : List Header.Entry} (hp : entries.Perm entries')
    (h : (entries.map Header.Entry.key).Nodup) :
    (Extraction.ofDocument { d with header := Header.linesOf entries }).Reordered
      (Extraction.ofDocument { d with header := Header.linesOf entries' }) := by
  have hfields := Header.fieldsOf_linesOf_of_perm hp h
  have hlength : (Header.linesOf entries').length = (Header.linesOf entries).length :=
    (hp.symm.flatMap_right Header.Entry.lines).length_eq
  rw [Extraction.ofDocument_eq_meaning, Extraction.ofDocument_eq_meaning]
  refine ⟨hfields, rfl, ?_, ?_⟩
  · simp only [meaning, bodyStart, hlength]
  · simp only [meaning, hfields, List.map_append]
    exact (Header.perm_lineFindings_linesOf hp h _ _).append_right _

namespace Package

/-- When the header of a document is made of entries with different keys, a document with the entries in another order and the
same lines around them is read alike: the fields, the body and its first line are the same, and so are the findings up to their
order and the numbers of their lines. Validating both gives the same verdict and the same findings, up to the same. -/
theorem validate_reordered (t : FileTree) (root : Path) (config : Config) {content content' : String} {d : Document}
    {entries entries' : List Header.Entry} (hkeys : (entries.map Header.Entry.key).Nodup) (hperm : entries.Perm entries')
    (hcut : Document.IsCutOf { d with header := Header.linesOf entries } (Text.lines content.toList))
    (hcut' : Document.IsCutOf { d with header := Header.linesOf entries' } (Text.lines content'.toList)) :
    ∃ e e' report report', Extraction.ofText? content = some e ∧ Extraction.ofText? content' = some e' ∧ e.Reordered e' ∧
      validate t ⟨root, content⟩ config = .ok report ∧ validate t ⟨root, content'⟩ config = .ok report' ∧
      report.Reordered report' := by
  have hread := d.reordered_linesOf hperm hkeys
  exact ⟨_, _, _, _, Extraction.ofText?_of_isCutOf hcut, Extraction.ofText?_of_isCutOf hcut', hread,
    validateText_of_isCutOf hcut config _, validateText_of_isCutOf hcut' config _, hread.report config _⟩

/-- A block of tools with a comment in it, before a nested map and an unknown key, and the same entries the other way round: the
tools are the same, and the unknown key is found two lines further up. -/
theorem validate_reordered_block :
    let t : FileTree := ⟨[], []⟩
    let content := "---\nallowed-tools:\n  - Read\n# more\n- Bsh\nmetadata:\n  tier: 2\nowner: me\nname: A\n---\nbefore 2020"
    let content' := "---\nname: A\nowner: me\nmetadata:\n  tier: 2\nallowed-tools:\n  - Read\n# more\n- Bsh\n---\nbefore 2020"
    ∃ e e' report report', Extraction.ofText? content = some e ∧ Extraction.ofText? content' = some e' ∧ e.Reordered e' ∧
      e.fields.allowedTools = some ["Read", "Bsh"] ∧ validate t ⟨⟨"a"⟩, content⟩ {} = .ok report ∧
      validate t ⟨⟨"a"⟩, content'⟩ {} = .ok report' ∧ report.Reordered report' ∧
      (report.named ["header"]).map Finding.location = [some (.line 8), some (.field "description")] ∧
      (report'.named ["header"]).map Finding.location = [some (.line 3), some (.field "description")] := by
  intro t content content'
  let tools : Header.Entry :=
    ⟨"allowed-tools:".toList, ["  - Read".toList, "# more".toList, "- Bsh".toList], by decide, by decide, by decide⟩
  let metadata : Header.Entry := ⟨"metadata:".toList, ["  tier: 2".toList], by decide, by decide, by decide⟩
  let owner : Header.Entry := ⟨"owner: me".toList, [], by decide, by decide, by decide⟩
  let name : Header.Entry := ⟨"name: A".toList, [], by decide, by decide, by decide⟩
  let d : Document := ⟨[], [], ["before 2020".toList]⟩
  have hcut : Document.IsCutOf { d with header := Header.linesOf [tools, metadata, owner, name] }
      (Text.lines content.toList) := Document.ofText?_eq_some_iff.1 (by decide)
  have hcut' : Document.IsCutOf { d with header := Header.linesOf [name, owner, metadata, tools] }
      (Text.lines content'.toList) := Document.ofText?_eq_some_iff.1 (by decide)
  have hkeys : ([tools, metadata, owner, name].map Header.Entry.key).Nodup := by decide
  have hperm : [tools, metadata, owner, name].Perm [name, owner, metadata, tools] := (List.reverse_perm _).symm
  obtain ⟨e, e', report, report', he, he', hread, hreport, hreport', hreordered⟩ :=
    validate_reordered t ⟨"a"⟩ {} hkeys hperm hcut hcut'
  have htools : (Extraction.ofText? content).map (fun e => e.fields.allowedTools) = some (some ["Read", "Bsh"]) := by
    decide
  have hfound : (validate t ⟨⟨"a"⟩, content⟩ {}).toOption.map (fun r => (r.named ["header"]).map Finding.location) =
      some [some (.line 8), some (.field "description")] := by decide
  have hfound' : (validate t ⟨⟨"a"⟩, content'⟩ {}).toOption.map (fun r => (r.named ["header"]).map Finding.location) =
      some [some (.line 3), some (.field "description")] := by decide
  rw [he] at htools
  rw [hreport] at hfound
  rw [hreport'] at hfound'
  exact ⟨e, e', report, report', he, he', hread, Option.some.inj htools, hreport, hreport', hreordered, Option.some.inj hfound,
    Option.some.inj hfound'⟩

end Package

end SkillLint
