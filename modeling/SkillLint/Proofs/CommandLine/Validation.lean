import SkillLint.CommandLine
import SkillLint.Proofs.Json.RoundTrip
import SkillLint.Proofs.Render.Verdict
import SkillLint.Proofs.Report

/-!
# Validating from the command line

The exit status of a validation run, the text that it prints and the JSON object that it prints instead give the same verdict:
that of the report on the package, or of the error that keeps the package from being inspected. How the report is asked for does
not change the verdict. A run without a usable configuration prints to standard error alone, and every other run to standard
output alone.
-/

namespace SkillLint

theorem Report.errors_eq_nil_iff (r : Report) : r.errors = [] ↔ Finding.ErrorFree r.findings :=
  Finding.filter_isError_eq_nil_iff

namespace CommandLine

/-- The members of a JSON object tell what a run ended with, and that it ends with the given exit status. -/
structure MembersTell (members : List (String × Json)) (code : Nat) (result : Except PackageError Report) : Prop where
  /-- No member is there twice. -/
  distinct : (members.map Prod.fst).Nodup
  /-- The package has passed exactly when the exit status is zero. -/
  passed : members.lookup "passed" = some (.bool (code == 0))
  /-- There are no errors exactly when the exit status is zero. -/
  errors : ∃ count, members.lookup "errors" = some (.number count) ∧ (count = 0 ↔ code = 0)
  /-- An error that keeps the package from being inspected is told. -/
  fatal : ∀ error, result = .error error → members.lookup "fatal" = some (.text error.message)
  /-- A report tells of no such error. -/
  notFatal : ∀ report, result = .ok report → members.lookup "fatal" = none

/-- What a validation run prints tells what the run ended with, in the form that has been asked for. -/
def Outcome.Tells (out : Outcome) (result : Except PackageError Report) : Render.Format → Prop
  | .text => ∀ verdict : Render.Verdict,
      (Text.lines out.stdout.toList).getLast? = some verdict.line.toList ↔ verdict.Holds result
  | .json => ∃ members, Json.ofText? out.stdout = some (.object members) ∧ MembersTell members out.code result

/-! ## The parts of an outcome -/

/-- The exit status of a run that ended with a report or an error. -/
def resultCode : Except PackageError Report → Nat
  | .ok report => report.exitCode
  | .error _ => 1

/-- Only a report without errors gives the exit status zero. -/
theorem resultCode_eq_zero_iff {result : Except PackageError Report} :
    resultCode result = 0 ↔ ∃ report, result = .ok report ∧ Finding.ErrorFree report.findings := by
  cases result with
  | error e => simp [resultCode]
  | ok r =>
    rw [resultCode, Report.exitCode_eq_zero_iff, Report.passed, List.isEmpty_iff, Report.errors_eq_nil_iff]
    simp

/-- There is no exit status but zero and one. -/
theorem resultCode_cases (result : Except PackageError Report) : resultCode result = 0 ∨ resultCode result = 1 := by
  cases result with
  | error e => exact .inr rfl
  | ok r =>
    rw [resultCode, Report.exitCode]
    split
    · exact .inl rfl
    · exact .inr rfl

/-- The members of the JSON object on a run tell what it ended with. -/
theorem exists_membersTell (root : Path) (result : Except PackageError Report) (quiet : Bool) :
    ∃ members, Render.outcome ⟨.json, quiet, false⟩ root result = (Json.object members).document ∧
      MembersTell members (resultCode result) result := by
  cases result with
  | error e =>
    refine ⟨_, rfl, ?_⟩
    constructor
    · simp
    · rfl
    · exact ⟨1, rfl, by simp [resultCode]⟩
    · intro error h
      injection h with h
      rw [h]
      rfl
    · intro report h
      cases h
  | ok r =>
    refine ⟨_, rfl, ?_⟩
    have hpassed : r.passed = (resultCode (.ok r) == 0) := by
      rw [Bool.eq_iff_iff, beq_iff_eq, resultCode, Report.exitCode_eq_zero_iff]
    constructor
    · simp
    · rw [← hpassed]
      rfl
    · refine ⟨r.errors.length, rfl, ?_⟩
      rw [resultCode, Report.exitCode_eq_zero_iff, Report.passed, List.isEmpty_iff, List.length_eq_zero_iff]
    · intro error h
      cases h
    · intro report h
      rfl

variable {e : Environment} {t : FileTree} {v : Validation} {root : Path}

/-- A run without a usable configuration prints to standard error alone. -/
theorem validate_of_load_error {error : ConfigError} (h : Config.load t (sources e v.config) = .error error) :
    (validate e t v root).code = 1 ∧ (validate e t v root).stdout = "" ∧ (validate e t v root).stderr ≠ "" := by
  rw [validate, h]
  refine ⟨rfl, rfl, ?_⟩
  intro hempty
  have hempty := congrArg String.toList hempty
  simp [Outcome.failed] at hempty

/-- A run with a configuration prints what it ended with. -/
theorem validate_of_load_ok {config : Config} (h : Config.load t (sources e v.config) = .ok config) :
    validate e t v root =
      ⟨resultCode (Package.validateAt t root config),
        Render.outcome ⟨v.format.getD .text, v.quiet || asksForQuiet (e quietVariable), false⟩ root
          (Package.validateAt t root config), ""⟩ := by
  rw [validate, h]
  dsimp only
  cases Package.validateAt t root config with
  | error e => rfl
  | ok r => rfl

/-- What a run with a configuration prints tells what it ended with. -/
theorem tells_validate {config : Config} (h : Config.load t (sources e v.config) = .ok config) :
    (validate e t v root).Tells (Package.validateAt t root config) (v.format.getD .text) := by
  rw [validate_of_load_ok h]
  cases v.format.getD .text with
  | text => exact Render.getLast?_lines_outcome _ root _
  | json =>
    obtain ⟨members, hdocument, htell⟩ :=
      exists_membersTell root (Package.validateAt t root config) (v.quiet || asksForQuiet (e quietVariable))
    refine ⟨members, ?_, htell⟩
    rw [hdocument, Json.ofText?_document]

/-- What tells anything is not empty. -/
theorem Outcome.Tells.stdout_ne_empty {out : Outcome} {result : Except PackageError Report} {format : Render.Format}
    (h : out.Tells result format) : out.stdout ≠ "" := by
  intro hempty
  cases format with
  | text =>
    have hlast := (h (Render.Verdict.ofResult result)).2 (Render.Verdict.holds_ofResult result)
    rw [hempty] at hlast
    exact nomatch hlast
  | json =>
    obtain ⟨members, hread, -⟩ := h
    rw [hempty] at hread
    exact nomatch hread

/-- A validation run of the program: the exit status is zero exactly when the configuration can be loaded, the package can be
inspected and the report has no error, and one otherwise, and it depends on no more than the package and the places where the
configuration is looked for. Without a configuration nothing is printed but to standard error. With one, nothing is printed but to
standard output, where the verdict is that of the report: in the last line of a text, and in the members of a JSON object. -/
theorem run_validation (e : Environment) (t : FileTree) (texts : ParserTexts) {arguments : List String} {v : Validation} {root : Path}
    (hrequest : Request.ofArguments arguments = .validate v) (hroot : v.root = some root) :
    ∃ out, run e t arguments texts = (t, out) ∧ (out.code = 0 ∨ out.code = 1) ∧
      (out.code = 0 ↔ ∃ config report, Config.load t (sources e v.config) = .ok config ∧
        Package.validateAt t root config = .ok report ∧ Finding.ErrorFree report.findings) ∧
      (∀ (e' : Environment) (arguments' : List String) (texts' : ParserTexts) (v' : Validation),
        Request.ofArguments arguments' = .validate v' → v'.root = some root → sources e' v'.config = sources e v.config →
          (run e' t arguments' texts').2.code = out.code) ∧
      (∀ error, Config.load t (sources e v.config) = .error error → out.stdout = "" ∧ out.stderr ≠ "") ∧
      ∀ config, Config.load t (sources e v.config) = .ok config → out.stderr = "" ∧ out.stdout ≠ "" ∧
        out.Tells (Package.validateAt t root config) (v.format.getD .text) := by
  have hrun : ∀ (e : Environment) (arguments : List String) (texts : ParserTexts) (v : Validation),
      Request.ofArguments arguments = .validate v → v.root = some root →
        run e t arguments texts = (t, validate e t v root) := by
    intro e arguments texts v hrequest hroot
    rw [run, hrequest, Request.run, hroot]
  refine ⟨validate e t v root, hrun e arguments texts v hrequest hroot, ?_, ?_, ?_, ?_, ?_⟩
  · cases hload : Config.load t (sources e v.config) with
    | error error => exact .inr (validate_of_load_error hload).1
    | ok config =>
      rw [validate_of_load_ok hload]
      exact resultCode_cases _
  · cases hload : Config.load t (sources e v.config) with
    | error error =>
      rw [(validate_of_load_error hload).1]
      simp
    | ok config =>
      rw [validate_of_load_ok hload, resultCode_eq_zero_iff]
      simp
  · intro e' arguments' texts' v' hrequest' hroot' hsources
    rw [hrun e' arguments' texts' v' hrequest' hroot']
    cases hload : Config.load t (sources e v.config) with
    | error error =>
      have hload' : Config.load t (sources e' v'.config) = .error error := hsources ▸ hload
      rw [(validate_of_load_error hload).1, (validate_of_load_error hload').1]
    | ok config =>
      have hload' : Config.load t (sources e' v'.config) = .ok config := hsources ▸ hload
      rw [validate_of_load_ok hload, validate_of_load_ok hload']
  · intro error hload
    exact (validate_of_load_error hload).2
  · intro config hload
    have htells : (validate e t v root).Tells _ _ := tells_validate hload
    refine ⟨?_, htells.stdout_ne_empty, htells⟩
    rw [validate_of_load_ok hload]

/-- A package with one warning, asked for as text and, without progress, as JSON: it passes both times, and both times that is
told. With a directory as its configuration file the run prints no report. -/
theorem run_validation_warning :
    let content := "---\nname: pkg\ndescription: Use when b.\n---\nbefore 2020"
    let t : FileTree := ⟨[(["pkg"], .directory), (["pkg", "SKILL.md"], .file content.toUTF8)], []⟩
    let e : Environment := fun _ => none
    let asText := (run e t ["pkg"]).2
    let asJson := (run e t ["--format", "json", "-q", "pkg"]).2
    let configured := (run e t ["--config=pkg", "pkg"]).2
    (asText.code = 0 ∧ asText.stderr = "" ∧
      (Text.lines asText.stdout.toList).getLast? = some "✓ Validation passed with 1 warning".toList) ∧
    (asJson.code = 0 ∧ ∃ members, Json.ofText? asJson.stdout = some (.object members) ∧
      members.lookup "passed" = some (.bool true) ∧ members.lookup "fatal" = none) ∧
    configured.code = 1 ∧ configured.stdout = "" ∧ configured.stderr ≠ "" := by
  intro content t e asText asJson configured
  have hload : Config.load t (sources e none) = .ok {} := by rfl
  have hcount : (Package.validateAt t ⟨"pkg"⟩ {}).toOption.map (fun r => (r.errors.length, r.warnings.length)) = some (0, 1) := by
    decide
  obtain ⟨report, hreport, hcount⟩ : ∃ report, Package.validateAt t ⟨"pkg"⟩ {} = .ok report ∧
      (report.errors.length, report.warnings.length) = (0, 1) := by
    cases hvalidate : Package.validateAt t ⟨"pkg"⟩ {} with
    | error error =>
      rw [hvalidate] at hcount
      exact nomatch hcount
    | ok report =>
      rw [hvalidate] at hcount
      exact ⟨report, rfl, Option.some.inj hcount⟩
  injection hcount with herrors hwarnings
  have herrors : report.errors = [] := List.eq_nil_of_length_eq_zero herrors
  have hfree : Finding.ErrorFree report.findings := report.errors_eq_nil_iff.1 herrors
  have hasText : Request.ofArguments ["pkg"] = .validate { root := some ⟨"pkg"⟩ } := by decide
  have hasJson : Request.ofArguments ["--format", "json", "-q", "pkg"] =
      .validate { root := some ⟨"pkg"⟩, format := some .json, quiet := true } := by decide
  have hconfigured : Request.ofArguments ["--config=pkg", "pkg"] =
      .validate { root := some ⟨"pkg"⟩, config := some ⟨"pkg"⟩ } := by decide
  obtain ⟨out, hrun, -, hcode, hsame, -, htells⟩ := run_validation e t .bare hasText rfl
  obtain ⟨out', hrun', -, hcode', -, -, htells'⟩ := run_validation e t .bare hasJson rfl
  obtain ⟨out'', hrun'', hcodes, hcode'', -, herror, -⟩ := run_validation e t .bare hconfigured rfl
  have hout : asText = out := congrArg Prod.snd hrun
  have hout' : asJson = out' := congrArg Prod.snd hrun'
  have hout'' : configured = out'' := congrArg Prod.snd hrun''
  have hzero : out.code = 0 := hcode.2 ⟨{}, report, hload, hreport, hfree⟩
  have hzero' : out'.code = 0 := (hout' ▸ hsame e _ .bare _ hasJson rfl rfl : out'.code = out.code).trans hzero
  have hfault : Config.load t (sources e (some ⟨"pkg"⟩)) = .error (.unreadable ⟨"pkg"⟩ .isDirectory) := by rfl
  refine ⟨?_, ?_, ?_⟩
  · obtain ⟨hstderr, -, hlast⟩ := htells {} hload
    rw [hreport] at hlast
    rw [hout]
    exact ⟨hzero, hstderr, (hlast (.passed 1)).2 ⟨herrors, hwarnings, Nat.one_pos⟩⟩
  · obtain ⟨-, -, members, hread, hmembers⟩ := htells' {} hload
    have hpassed := hmembers.passed
    rw [hzero'] at hpassed
    rw [hout']
    exact ⟨hzero', members, hread, hpassed, hmembers.notFatal report hreport⟩
  · rw [hout'']
    refine ⟨hcodes.resolve_left ?_, herror _ hfault⟩
    rw [hcode'']
    rintro ⟨config, -, hconfig, -⟩
    exact nomatch hfault.symm.trans hconfig

end CommandLine

end SkillLint
