import SkillLint.Proofs.CommandLine.Creation
import SkillLint.Proofs.CommandLine.Validation
import SkillLint.Proofs.Render.Blocks

/-!
# The summary of a new package

A run that creates a package says in one line what has been found in it. There are three kinds of line, one of them without counts and
two with them, and each summary has a line of its own (`Summary.line_injective`). What the line says is right about the report of a
validation run that comes next (`run_create_summary`): both runs look for the configuration in the same places, and both open the
package that has been written.
-/

namespace SkillLint.CommandLine

/-- What the line about a new package says. -/
inductive Summary where
  /-- There is no finding. -/
  | clean
  /-- There are findings, with or without the icon of a failure. -/
  | counts (failing : Bool) (errors warnings : Nat)
deriving DecidableEq

namespace Summary

/-- The icon of a summary. -/
def icon (color : Bool) : Summary → String
  | clean => Render.successIcon color
  | counts true _ _ => Render.severityIcon color .error
  | counts false _ _ => Render.severityIcon color .warning

/-- What stands behind the icon of a summary. -/
def text (target : Path) : Summary → String
  | clean => " Package passes all checks\n"
  | counts _ errors warnings =>
    " New package has " ++ toString errors ++ " error(s) and " ++ toString warnings ++ " warning(s); run 'skillcheck " ++
      target.text ++ "' for details\n"

theorem text_counts (target : Path) (failing : Bool) (errors warnings : Nat) : (counts failing errors warnings).text target =
    " New package has " ++ toString errors ++ " error(s) and " ++ toString warnings ++ " warning(s); run 'skillcheck " ++
      target.text ++ "' for details\n" := rfl

/-- A summary as it is told to the user. -/
def line (color : Bool) (target : Path) (s : Summary) : String :=
  s.icon color ++ s.text target

/-- Whether a summary is right about a report and the exit status of a run that prints it. -/
def Holds (report : Report) (code : Nat) : Summary → Prop
  | clean => report.findings = []
  | counts failing errors warnings =>
    report.findings ≠ [] ∧ report.errors.length = errors ∧ report.warnings.length = warnings ∧ (failing = true ↔ code = 1)

/-- The summary of a report. -/
def ofReport (report : Report) : Summary :=
  if report.clean then clean else counts (!report.passed) report.errors.length report.warnings.length

/-! ## One summary is right -/

/-- A summary is right about a report exactly when it is the summary of the report. -/
theorem holds_iff {s : Summary} {report : Report} : s.Holds report report.exitCode ↔ ofReport report = s := by
  have hcode : ((!report.passed) = true) ↔ report.exitCode = 1 := by
    rw [Report.exitCode]
    cases report.passed <;> simp
  by_cases hclean : report.clean = true
  · have hfindings : report.findings = [] := List.isEmpty_iff.1 hclean
    rw [ofReport, if_pos hclean]
    cases s with
    | clean => exact iff_of_true hfindings rfl
    | counts failing errors warnings => exact iff_of_false (fun h => h.1 hfindings) Summary.noConfusion
  · have hfindings : report.findings ≠ [] := fun h => hclean (List.isEmpty_iff.2 h)
    rw [ofReport, if_neg hclean]
    cases s with
    | clean => exact iff_of_false hfindings Summary.noConfusion
    | counts failing errors warnings =>
      constructor
      · rintro ⟨-, rfl, rfl, hfailing⟩
        rw [Bool.eq_iff_iff.2 (hcode.trans hfailing.symm)]
      · intro h
        obtain ⟨rfl, rfl, rfl⟩ := counts.inj h
        exact ⟨hfindings, rfl, rfl, hcode⟩

/-- The line about a new package is that of the summary of its report. -/
theorem verdictLine_eq (color : Bool) (target : Path) (report : Report) :
    verdictLine color target report = (ofReport report).line color target := by
  rw [verdictLine, ofReport]
  by_cases hclean : report.clean = true
  · rw [if_pos hclean, if_pos hclean]
    rfl
  · have hicon : Render.severityIcon color (if report.passed then .warning else .error) =
        (counts (!report.passed) report.errors.length report.warnings.length).icon color := by
      cases report.passed <;> rfl
    have hadvice : " warning(s); run 'skillcheck " = " warning(s); run '" ++ programName ++ " " := by decide
    rw [if_neg hclean, if_neg hclean, hicon, line, text_counts, hadvice]
    simp only [String.append_assoc]

/-! ## Summaries have different lines -/

/-- A number and what stands behind it can be told from the text of both. -/
theorem toDigits_append_cons_inj {m n : Nat} {c d : Char} {rest rest' : List Char} (hc : c.isDigit = false)
    (hd : d.isDigit = false) (h : Nat.toDigits 10 m ++ c :: rest = Nat.toDigits 10 n ++ d :: rest') :
    m = n ∧ c :: rest = d :: rest' := by
  have hread := congrArg Render.readCount? h
  rw [Render.readCount?_toDigits m hc, Render.readCount?_toDigits n hd] at hread
  exact Prod.mk.inj (Option.some.inj hread)

theorem length_icon (color : Bool) (s : Summary) : (s.icon color).toList.length = (Render.successIcon color).toList.length := by
  have hall : ∀ color, (Render.severityIcon color .error).toList.length = (Render.successIcon color).toList.length ∧
      (Render.severityIcon color .warning).toList.length = (Render.successIcon color).toList.length := by decide
  cases s with
  | clean => rfl
  | counts failing errors warnings =>
    cases failing with
    | true => exact (hall color).1
    | false => exact (hall color).2

/-- Different summaries have different icons, but for their counts. -/
theorem icon_ne (color : Bool) (errors warnings : Nat) (failing : Bool) :
    (counts failing errors warnings).icon color ≠ clean.icon color ∧
      ∀ errors' warnings', (counts failing errors warnings).icon color ≠ (counts (!failing) errors' warnings').icon color := by
  have hall : ∀ color, Render.severityIcon color .error ≠ Render.successIcon color ∧
      Render.severityIcon color .warning ≠ Render.successIcon color ∧
      Render.severityIcon color .error ≠ Render.severityIcon color .warning := by decide
  obtain ⟨hfailure, hwarning, hdiffer⟩ := hall color
  cases failing with
  | true => exact ⟨hfailure, fun _ _ => hdiffer⟩
  | false => exact ⟨hwarning, fun _ _ => hdiffer.symm⟩

/-- The counts of a summary can be told from its text. -/
theorem text_counts_inj {target : Path} {failing failing' : Bool} {errors errors' warnings warnings' : Nat}
    (h : (counts failing errors warnings).text target = (counts failing' errors' warnings').text target) :
    errors = errors' ∧ warnings = warnings' := by
  have htext : ∀ failing errors warnings, ((counts failing errors warnings).text target).toList =
      " New package has ".toList ++ (Nat.toDigits 10 errors ++ (" error(s) and ".toList ++ (Nat.toDigits 10 warnings ++
        (" warning(s); run 'skillcheck ".toList ++ (target.text.toList ++ "' for details\n".toList))))) := by
    intro failing errors warnings
    simp only [text_counts, String.toList_append, Nat.toString_eq_repr, Nat.toList_repr, List.append_assoc]
  obtain ⟨between, hbetween⟩ : ∃ between, " error(s) and ".toList = ' ' :: between := ⟨_, rfl⟩
  obtain ⟨behind, hbehind⟩ : ∃ behind, " warning(s); run 'skillcheck ".toList = ' ' :: behind := ⟨_, rfl⟩
  have hlists := congrArg String.toList h
  rw [htext, htext, List.append_cancel_left_eq, hbetween, hbehind] at hlists
  simp only [List.cons_append] at hlists
  obtain ⟨herrors, hrest⟩ := toDigits_append_cons_inj rfl rfl hlists
  rw [List.cons.injEq, List.append_cancel_left_eq] at hrest
  exact ⟨herrors, (toDigits_append_cons_inj rfl rfl hrest.2).1⟩

/-- Different summaries have different lines. -/
theorem line_injective (color : Bool) (target : Path) : Function.Injective (line color target) := by
  intro s s' h
  have hlists : (s.icon color).toList ++ (s.text target).toList = (s'.icon color).toList ++ (s'.text target).toList := by
    rw [← String.toList_append, ← String.toList_append]
    exact congrArg String.toList h
  obtain ⟨hicon, htext⟩ := List.append_inj hlists ((length_icon color s).trans (length_icon color s').symm)
  rw [String.toList_inj] at hicon htext
  cases s with
  | clean =>
    cases s' with
    | clean => rfl
    | counts failing errors warnings => exact absurd hicon.symm (icon_ne color errors warnings failing).1
  | counts failing errors warnings =>
    cases s' with
    | clean => exact absurd hicon (icon_ne color errors warnings failing).1
    | counts failing' errors' warnings' =>
      obtain ⟨rfl, rfl⟩ := text_counts_inj htext
      by_cases hfailing : failing' = failing
      · rw [hfailing]
      · rw [Bool.eq_not.2 hfailing] at hicon
        exact absurd hicon ((icon_ne color errors warnings failing).2 errors warnings)

end Summary

/-! ## The run that comes next -/

/-- What stands behind two hyphens is the package to validate. -/
theorem Request.ofArguments_operand {root : Path} (h : root.text ≠ "") :
    Request.ofArguments ["--", root.text] = .validate { root := some root } := by
  have hrequest : Request.ofArguments ["--", root.text] = settle .validate ([Item.operand root.text].foldlM Validation.read {}) :=
    rfl
  have hpath : readPath "PATH" root.text = .ok root := if_neg h
  rw [hrequest, List.foldlM_cons, Validation.read, hpath]
  rfl

/-- A run that creates a package and succeeds, and a run that validates the package next. The second run finds the configuration and
can inspect the package, so it prints a report, and its exit status is that of the report. The line about the package that the first run
prints, behind the one that names the package and before the next steps, is that of a summary exactly when the summary is right
about this report and this exit status. -/
theorem run_create_summary {e : Environment} {t made : FileTree} {arguments : List String} {texts : ParserTexts} {c : Creation}
    {out : Outcome} (hrequest : Request.ofArguments arguments = .create c) (hrun : run e t arguments texts = (made, out))
    (hcode : out.code = 0) :
    ∃ request config report out', c.scaffold? t = .ok request ∧ request.run t = (made, .ok request.target) ∧
      Config.load made (sources e none) = .ok config ∧ Package.validateAt made request.target config = .ok report ∧
      run e made ["--", request.target.text] texts = (made, out') ∧ out'.code = report.exitCode ∧
      out'.stdout = Render.report ⟨.text, asksForQuiet (e quietVariable), false⟩ request.target report ∧ out'.stderr = "" ∧
      ∀ summary : Summary, out.stdout = createdLine (colorsForced e) request.target ++
        summary.line (colorsForced e) request.target ++ nextSteps (colorsForced e) request.target ↔
          summary.Holds report out'.code := by
  have hcreate : create e t c = (made, out) := by
    rw [← hrun, run, hrequest]
    rfl
  rcases create_cases e t c with ⟨message, hfailed⟩ | ⟨-, hfailed⟩ | ⟨request, after, hscaffold, hmade, hinspect⟩
  · rw [(Prod.mk.inj (hcreate.symm.trans hfailed)).2] at hcode
    exact absurd hcode Nat.one_ne_zero
  · rw [hcreate] at hfailed
    exact absurd (hcode.symm.trans hfailed) Nat.zero_ne_one
  · obtain ⟨rfl, rfl⟩ := Prod.mk.inj (hcreate.symm.trans hinspect)
    rcases inspectNew_cases e made request.target with ⟨message, hfailed, -⟩ | ⟨config, report, hload, hvalidate, hdone⟩
    · rw [hfailed] at hcode
      exact absurd hcode Nat.one_ne_zero
    · have htext : request.target.text ≠ "" :=
        (ScaffoldRequest.endsInName_of_refusal? (ScaffoldRequest.run_eq_ok hmade).2.1).text_ne
      have hnext : run e made ["--", request.target.text] texts =
          (made, validate e made { root := some request.target } request.target) := by
        rw [run, Request.ofArguments_operand htext]
        rfl
      have hout : validate e made { root := some request.target } request.target = _ := validate_of_load_ok hload
      rw [hvalidate] at hout
      refine ⟨request, config, report, _, hscaffold, hmade, hload, hvalidate, hnext, ?_, ?_, ?_, fun summary => ?_⟩
      · rw [hout]
        rfl
      · rw [hout]
        exact congrArg (fun quiet => Render.report ⟨.text, quiet, false⟩ request.target report) (Bool.false_or _)
      · rw [hout]
      · rw [hdone, hout, Outcome.done, Summary.verdictLine_eq, String.append_left_inj, String.append_right_inj,
          (Summary.line_injective _ _).eq_iff]
        exact Summary.holds_iff.symm

/-- A template whose document has no description: its package is created with an error, which is printed with the icon of a
failure, and the run that comes next fails. -/
theorem run_create_summary_failing :
    let e : Environment := fun _ => none
    let created := run e (documentAlone "---\nname: a\n---\n") ["init", "a", "-d", "Use when asked.", "-t", "tpl"]
    created.2.code = 0 ∧
      created.2.stdout =
        createdLine false ⟨"./a"⟩ ++ (Summary.counts true 1 0).line false ⟨"./a"⟩ ++ nextSteps false ⟨"./a"⟩ ∧
      (run e created.1 ["--", "./a"]).2.code = 1 := by
  intro e created
  have hrequest : Request.ofArguments ["init", "a", "-d", "Use when asked.", "-t", "tpl"] =
      .create { name := some "a", description := some "Use when asked.", template := some "tpl" } := by decide
  have hscaffold : Creation.scaffold? { name := some "a", description := some "Use when asked.", template := some "tpl" }
      (documentAlone "---\nname: a\n---\n") = .ok ⟨"a", "Use when asked.", .directory ⟨"tpl"⟩, ⟨"."⟩, false⟩ := by rfl
  obtain ⟨-, hcreated⟩ :=
    run_of_written (e := e) .bare hrequest hscaffold (by decide +kernel) (files_documentAlone _) (by decide +kernel)
  obtain ⟨made, hmade⟩ : ∃ made, made = (ScaffoldRequest.writeAll ⟨"a", "Use when asked.", .directory ⟨"tpl"⟩, ⟨"."⟩, false⟩
      (documentAlone "---\nname: a\n---\n") [⟨⟨documentName⟩, "---\nname: a\n---\n".toUTF8⟩]).1 := ⟨_, rfl⟩
  have htarget : ScaffoldRequest.target ⟨"a", "Use when asked.", .directory ⟨"tpl"⟩, ⟨"."⟩, false⟩ = ⟨"./a"⟩ := by
    decide +kernel
  have hcode : (inspectNew e made ⟨"./a"⟩).code = 0 := by
    rw [hmade]
    decide +kernel
  have hcounts : (Package.validateAt made ⟨"./a"⟩ {}).toOption.map (fun report =>
      (report.errors.length, report.warnings.length, report.exitCode)) = some (1, 0, 1) := by
    rw [hmade]
    decide +kernel
  rw [← hmade, htarget] at hcreated
  obtain ⟨request, config, report, out, hscaffold', -, hload, hvalidate, hnext, hexit, -, -, hprinted⟩ :=
    run_create_summary hrequest hcreated hcode
  obtain rfl := Except.ok.inj (hscaffold.symm.trans hscaffold')
  have hdefault : Config.load made (sources e none) = .ok {} := rfl
  obtain rfl := Except.ok.inj (hdefault.symm.trans hload)
  have hcolor : colorsForced e = false := rfl
  rw [htarget] at hvalidate hnext hprinted
  rw [hcolor] at hprinted
  rw [hvalidate] at hcounts
  obtain ⟨herrors, hwarnings, hstatus⟩ : report.errors.length = 1 ∧ report.warnings.length = 0 ∧ report.exitCode = 1 := by
    simpa [Except.toOption] using hcounts
  have hfindings : report.findings ≠ [] := by
    intro h
    rw [Report.errors, h] at herrors
    exact absurd herrors Nat.zero_ne_one
  have hholds : (Summary.counts true 1 0).Holds report out.code :=
    ⟨hfindings, herrors, hwarnings, iff_of_true rfl (hexit.trans hstatus)⟩
  have hpair : created = (made, inspectNew e made ⟨"./a"⟩) := hcreated
  rw [hpair, hnext]
  exact ⟨hcode, (hprinted _).2 hholds, hexit.trans hstatus⟩

end SkillLint.CommandLine
