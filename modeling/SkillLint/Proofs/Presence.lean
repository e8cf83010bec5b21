import Mathlib.Data.List.Basic
import SkillLint.Proofs.Containment
import SkillLint.Proofs.Named

/-!
# What validation sees of a file tree

Of the file tree that a package lies in, the report on the package depends on one thing: which of the files that its links name
are there. What files hold is not looked at, and the links in them are not followed. With more files there, errors about missing
files go away, and nothing else changes.
-/

namespace SkillLint

/-! ## The checks -/

namespace Check

/-- Whether some text has a link that names a file: one whose target is not external and has that file part. -/
def NamesFile (body file : String) : Prop :=
  ∃ r ∈ Markdown.references body, isExternal r.target = false ∧ filePart r.target = file ∧ file ≠ ""

variable (e : Extraction) (config : Config) {present present' : String → Bool}

/-- What is found about a reference that does not name a file is the same whatever files are there, and what is found about one
that does is the same when the file is there or is not there in both cases. -/
theorem checkReference_congr {r : Markdown.Reference}
    (h : isExternal r.target = false → filePart r.target ≠ "" → present (filePart r.target) = present' (filePart r.target)) :
    checkReference (e.context config present) r = checkReference (e.context config present') r := by
  rcases not_names_or_names r with hnames | ⟨hx, hf⟩
  · rw [checkReference_of_not_names hnames, checkReference_of_not_names hnames]
  · have hpresent : (e.context config present).present (filePart r.target) =
        (e.context config present').present (filePart r.target) := h hx hf
    rw [checkReference_of_names hx hf, checkReference_of_names hx hf, hpresent]
    rfl

/-- A check finds the same when the same files are there, of those that the links of the body name. -/
theorem run_congr_present (h : ∀ file, NamesFile e.body file → present file = present' file) (check : Check) :
    run (e.context config present) check = run (e.context config present') check := by
  cases check with
  | references =>
    rw [run, run, referenceFindings, referenceFindings]
    refine List.flatMap_congr fun r hr => checkReference_congr e config fun hx hf => ?_
    exact h _ ⟨r, hr, hx, rfl, hf⟩
  | name => rfl
  | description => rfl
  | allowedTools => rfl
  | bodySize => rfl
  | pathSeparators => rfl
  | timeSensitive => rfl

section

variable {gone : Finding → Bool}
  (hgone : ∀ f, gone f = true ↔ ∃ number file, f = missingFile number file ∧ present' file = true)

include hgone

theorem not_gone_of_rule {f : Finding} (h : f.rule ≠ Rule.referencesMissing.code) : gone f = false := by
  rw [Bool.eq_false_iff, Ne, hgone]
  rintro ⟨number, file, rfl, -⟩
  exact h rfl

/-- The finding about a missing file is gone when the file is there. -/
theorem gone_missingFile (number : Nat) (file : String) : gone (missingFile number file) = present' file := by
  rw [Bool.eq_iff_iff, hgone]
  constructor
  · rintro ⟨number', file', heq, hp⟩
    rw [missingFile_injective heq]
    exact hp
  · intro hp
    exact ⟨number, file, rfl, hp⟩

variable (hmore : ∀ file, present file = true → present' file = true)

include hmore

/-- With more files there, the finding about a missing file that is now there is gone, and the others stay. -/
theorem checkReference_of_more (r : Markdown.Reference) : checkReference (e.context config present') r =
    (checkReference (e.context config present) r).filter fun f => !gone f := by
  rcases not_names_or_names r with hnames | ⟨hx, hf⟩
  · rw [checkReference_of_not_names hnames, checkReference_of_not_names hnames]
    rfl
  · have houtside : ∀ number target, gone (outsidePackage number target) = false := fun number target =>
      not_gone_of_rule hgone fun h => by
        have hcode : Rule.referencesOutsidePackage.code = Rule.referencesMissing.code := h
        exact absurd (Rule.code_injective hcode) (by decide)
    rw [checkReference_of_names hx hf, checkReference_of_names hx hf, List.filter_append]
    refine congrArg₂ _ ?_ ?_
    · refine (List.filter_eq_self.2 fun f hmem => ?_).symm
      obtain ⟨-, rfl⟩ := Finding.mem_listIf.1 hmem
      rw [houtside]
      rfl
    · have hpresent := hmore (filePart r.target)
      have hfile := gone_missingFile hgone ((e.context config present).documentLine r.line) (filePart r.target)
      simp only [Extraction.context, Context.documentLine] at hfile ⊢
      cases hp' : present' (filePart r.target) with
      | true => cases hp : present (filePart r.target) <;> simp [Finding.listIf, hfile, hp']
      | false =>
        cases hp : present (filePart r.target) with
        | true => exact absurd (hpresent hp) (by simp [hp'])
        | false => simp [Finding.listIf, hfile, hp']

/-- With more files there, a check finds what it found before but for the findings about files that are now there. -/
theorem run_of_more (check : Check) :
    run (e.context config present') check = (run (e.context config present) check).filter fun f => !gone f := by
  have hother : Rule.referencesMissing ∉ check.rules →
      (run (e.context config present) check).filter (fun f => !gone f) = run (e.context config present) check :=
    fun hr => List.filter_eq_self.2 fun f hf => by
      rw [not_gone_of_rule hgone fun hcode => hr ((allOf_run _ check).isOf_of_code hf hcode).1]
      rfl
  cases check with
  | references =>
    rw [run, run, referenceFindings, referenceFindings, List.filter_flatMap]
    exact List.flatMap_congr fun r _ => checkReference_of_more e config hgone hmore r
  | name => exact (hother (by decide)).symm
  | description => exact (hother (by decide)).symm
  | allowedTools => exact (hother (by decide)).symm
  | bodySize => exact (hother (by decide)).symm
  | pathSeparators => exact (hother (by decide)).symm
  | timeSensitive => exact (hother (by decide)).symm

end

end Check

/-! ## Reports -/

namespace Extraction

variable (d : Document) (config : Config) {present present' : String → Bool}

/-- The report is the same when the same files are there, of those that the links of the body name. -/
theorem report_congr_present (h : ∀ file, Check.NamesFile d.bodyText file → present file = present' file) :
    (ofDocument d).report config present = (ofDocument d).report config present' := by
  have hrun : Check.run ((ofDocument d).context config present) = Check.run ((ofDocument d).context config present') :=
    funext fun check => Check.run_congr_present (ofDocument d) config h check
  rw [report_eq, report_eq, allFindings, allFindings, hrun]

/-- With more files there, the report is as before but for the findings about files that are now there. -/
theorem report_of_more (hmore : ∀ file, present file = true → present' file = true) {gone : Finding → Bool}
    (hgone : ∀ f, gone f = true ↔ ∃ number file, f = Check.missingFile number file ∧ present' file = true) :
    (ofDocument d).report config present' =
      { (ofDocument d).report config present with
        findings := ((ofDocument d).report config present).findings.filter fun f => !gone f } := by
  refine report_eq_filter (ofDocument d) present rfl (fun f hf => ?_) fun check =>
    Check.run_of_more (ofDocument d) config hgone hmore check
  obtain ⟨rule, hr, hof⟩ := Header.allOf_findings_ofDocument d f hf
  have hne : ∀ rule ∈ Header.lineRules ++ Header.fieldRules, rule.code ≠ Rule.referencesMissing.code := by decide
  rw [Check.not_gone_of_rule hgone (hof.code ▸ hne rule hr)]
  rfl

end Extraction

/-! ## Packages -/

namespace Package

/-- Whether two trees agree on the files that the links in the body of a package name: each is there in both or in neither. -/
def AgreeOnLinks (p : Package) (t u : FileTree) : Prop :=
  ∀ d, Document.ofText? p.content = some d → ∀ file, Check.NamesFile d.bodyText file → p.holds t file = p.holds u file

variable (p : Package) (config : Config) {t u : FileTree}

/-- In trees that agree on the files which the links name, the outcomes are equal. -/
theorem validate_congr_tree (h : p.AgreeOnLinks t u) : p.validate t config = p.validate u config := by
  cases hd : Document.ofText? p.content with
  | none => simp only [validate, validateText, Extraction.ofText?, hd, Option.map_none]
  | some d =>
    have hcut := Document.ofText?_eq_some_iff.1 hd
    rw [validate, validate, validateText_of_isCutOf hcut, validateText_of_isCutOf hcut,
      Extraction.report_congr_present d config (h d hd)]

/-- In a tree that has more, the outcome is the same without the errors about missing files that are there. -/
theorem validate_of_more (hmore : ∀ path, t.contains path = true → u.contains path = true) {gone : Finding → Bool}
    (hgone : ∀ f, gone f = true ↔ ∃ number file, f = Check.missingFile number file ∧ p.holds u file = true) :
    p.validate u config = (p.validate t config).map fun report =>
      { report with findings := report.findings.filter fun f => !gone f } := by
  have hfiles : ∀ file, p.holds t file = true → p.holds u file = true := fun file => hmore _
  cases hd : Document.ofText? p.content with
  | none =>
    simp only [validate, validateText, Extraction.ofText?, hd, Option.map_none]
    rfl
  | some d =>
    have hcut := Document.ofText?_eq_some_iff.1 hd
    rw [validate, validate, validateText_of_isCutOf hcut, validateText_of_isCutOf hcut,
      Extraction.report_of_more d config hfiles hgone]
    rfl

/-- What a report shows about references is about a file that a link names: it is outside the package, or it is missing. -/
theorem exists_reference_of_mem_named {d : Document} {report : Report} (hd : Document.ofText? p.content = some d)
    (hreport : p.validate t config = .ok report) {f : Finding} (hf : f ∈ report.named ["references"]) :
    ∃ r ∈ Markdown.references d.bodyText, Check.isExternal r.target = false ∧ Check.filePart r.target ≠ "" ∧
      (Path.escapes ⟨Check.filePart r.target⟩ = true ∧ f = Check.outsidePackage (d.bodyStart + r.line) r.target ∨
        p.holds t (Check.filePart r.target) = false ∧
          f = Check.missingFile (d.bodyStart + r.line) (Check.filePart r.target)) := by
  rw [validate, validateText_of_isCutOf (Document.ofText?_eq_some_iff.1 hd)] at hreport
  have hnamed : ((Extraction.ofDocument d).report config (p.holds t)).named ["references"] = _ :=
    Extraction.named_report_pattern d config (p.holds t) .references
  rw [← Except.ok.inj hreport, hnamed] at hf
  obtain ⟨hfound, -⟩ := List.mem_filter.1 hf
  obtain ⟨r, hr, hmem⟩ := List.mem_flatMap.1 hfound
  have hpresent : ((Extraction.ofDocument d).context config (p.holds t)).present = p.holds t := rfl
  have hnames := Check.mem_checkReference_iff.1 hmem
  rw [hpresent] at hnames
  exact ⟨r, hr, hnames⟩

/-- A path from which a document can be read is that of a directory, and the package in it is the one with that document. -/
theorem validateAt_of_readText (hroot : p.root.text ≠ "") (hread : t.readText (p.root.child documentName) = .ok p.content) :
    t.isDirectory p.root = true ∧ validateAt t p.root config = p.validate t config := by
  have hcontains := FileTree.contains_of_isFile (FileTree.isFile_of_readText hread)
  obtain ⟨place, hl⟩ := FileTree.exists_locate_of_contains hcontains
  have hdirectory : t.isDirectory p.root = true := by
    rw [FileTree.isDirectory, FileTree.stat_of_locate_join hroot (by decide) hl]
  refine ⟨hdirectory, ?_⟩
  rw [validateAt, openAt_of_readText hdirectory hread]

/-- Trees that agree on the files which the links in the body name give equal outcomes. When all that one tree has is there in
another one, the outcome in the other is the same without the errors about missing files that are there. What is found about
references comes from targets that are not external and have a file part. A path that is not empty, from which the document can be
read, is that of a directory, and the outcome for the directory is the one for a package with the text that was read. -/
theorem validate_presence (p : Package) (config : Config) :
    (∀ t u, p.AgreeOnLinks t u → p.validate t config = p.validate u config) ∧
    (∀ t u : FileTree, (∀ path, t.contains path = true → u.contains path = true) →
      ∃ gone : Finding → Bool,
        (∀ f, gone f = true ↔ ∃ number file, f = Check.missingFile number file ∧ p.holds u file = true) ∧
        p.validate u config = (p.validate t config).map fun report =>
          { report with findings := report.findings.filter fun f => !gone f }) ∧
    (∀ t d report, Document.ofText? p.content = some d → p.validate t config = .ok report →
      ∀ f ∈ report.named ["references"], ∃ r ∈ Markdown.references d.bodyText,
        Check.isExternal r.target = false ∧ Check.filePart r.target ≠ "" ∧
          (Path.escapes ⟨Check.filePart r.target⟩ = true ∧ f = Check.outsidePackage (d.bodyStart + r.line) r.target ∨
            p.holds t (Check.filePart r.target) = false ∧
              f = Check.missingFile (d.bodyStart + r.line) (Check.filePart r.target))) ∧
    ∀ t : FileTree, p.root.text ≠ "" → t.readText (p.root.child documentName) = .ok p.content →
      t.isDirectory p.root = true ∧ validateAt t p.root config = p.validate t config := by
  classical
  refine ⟨fun t u hagree => p.validate_congr_tree config hagree, fun t u hmore => ?_,
    fun t d report hd hreport f hf => p.exists_reference_of_mem_named config hd hreport hf,
    fun t hroot hread => p.validateAt_of_readText config hroot hread⟩
  have hgone : ∀ f, decide (∃ number file, f = Check.missingFile number file ∧ p.holds u file = true) = true ↔
      ∃ number file, f = Check.missingFile number file ∧ p.holds u file = true := fun f => decide_eq_true_iff
  exact ⟨_, hgone, p.validate_of_more config hmore hgone⟩

/-- A link to a guide with a space in its name, one to a file above and below, and an external one: with the guide there, the error
about it is gone and the one about the other file stays, and a broken link in the guide is not followed. -/
theorem validate_presence_guide :
    let body := "[x](docs/my%20guide.md#top) [y](HTTP://X.ORG)\n[z](docs/../b.md)"
    let p : Package := ⟨⟨"a"⟩, "---\nname: a\n---\n" ++ body⟩
    let t : FileTree :=
      ⟨[(["a"], .directory), (["a", "SKILL.md"], .file p.content.toUTF8), (["a", "docs"], .directory)], []⟩
    let u := t.put ["a", "docs", "my guide.md"] (.file ByteArray.empty)
    let v := t.put ["a", "docs", "my guide.md"] (.file "[broken](nowhere.md)".toUTF8)
    p.AgreeOnLinks u v ∧ p.validate u {} = p.validate v {} ∧
      (∀ path, t.contains path = true → u.contains path = true) ∧
      ∃ report report' : Report, p.validate t {} = .ok report ∧ validateAt t p.root {} = .ok report ∧
        p.validate u {} = .ok report' ∧ (∃ gone : Finding → Bool, report'.findings = report.findings.filter fun f => !gone f) ∧
        report.named ["references"] = [Check.missingFile 4 "docs/my guide.md", Check.missingFile 5 "docs/../b.md"] ∧
        report'.named ["references"] = [Check.missingFile 5 "docs/../b.md"] ∧
        ∃ r ∈ Markdown.references body, Check.isExternal r.target = false ∧ Check.filePart r.target ≠ "" := by
  intro body p t u v
  obtain ⟨hsame, hmore, hfound, hopen⟩ := validate_presence p {}
  let d : Document := ⟨[], ["name: a".toList], Text.lines body.toList⟩
  have hd : Document.ofText? p.content = some d := by decide +kernel
  have hbody : d.bodyText = body := by decide +kernel
  have hagree : p.AgreeOnLinks u v := by
    intro d' hd' file hnames
    obtain rfl : d = d' := Option.some.inj (hd.symm.trans hd')
    obtain ⟨r, hr, -, rfl, -⟩ := hnames
    have hall : ∀ r ∈ Markdown.references d.bodyText,
        p.holds u (Check.filePart r.target) = p.holds v (Check.filePart r.target) := by decide +kernel
    exact hall r hr
  have hcovers : t.Covers u := (FileTree.extends_put t _ (by decide +kernel)).covers
  have hcontains : ∀ path, t.contains path = true → u.contains path = true := fun path => hcovers.contains
  obtain ⟨gone, -, hgone⟩ := hmore t u hcontains
  have hread : t.readText (p.root.child documentName) = .ok p.content := by decide +kernel
  obtain ⟨-, hat⟩ := hopen t (by decide) hread
  have hnamed : (p.validate t {}).toOption.map (fun r => r.named ["references"]) =
      some [Check.missingFile 4 "docs/my guide.md", Check.missingFile 5 "docs/../b.md"] := by decide +kernel
  have hnamed' : (p.validate u {}).toOption.map (fun r => r.named ["references"]) =
      some [Check.missingFile 5 "docs/../b.md"] := by decide +kernel
  cases hreport : p.validate t {} with
  | error e => simp [hreport, Except.toOption] at hnamed
  | ok report =>
    rw [hreport] at hgone hnamed hat
    have hnamed : report.named ["references"] = _ := Option.some.inj hnamed
    rw [hgone] at hnamed'
    have hnamed' : Report.named _ ["references"] = _ := Option.some.inj hnamed'
    obtain ⟨r, hr, hx, hf, -⟩ := hfound t d report hd hreport _ (hnamed ▸ List.mem_cons_self)
    exact ⟨hagree, hsame u v hagree, hcontains, report, _, rfl, hat, hgone, ⟨gone, rfl⟩, hnamed, hnamed', r, hbody ▸ hr, hx, hf⟩

end Package

end SkillLint
