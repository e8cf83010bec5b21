import SkillLint.Proofs.Renumbering
import SkillLint.Proofs.Text.Trim
import SkillLint.Render

/-!
# The verdict in the last line

The last line of a report as text gives the verdict. There are four kinds of verdict, two of them with a count, and each verdict
has a line of its own (`Verdict.line_injective`). So the last line that is printed tells what the run ended with, whatever stands
above it (`getLast?_lines_outcome`).
-/

namespace SkillLint

/-- A report without errors has nothing but warnings. -/
theorem Report.warnings_eq_findings {r : Report} (h : r.errors = []) : r.warnings = r.findings := by
  rw [warnings, List.filter_eq_self]
  intro f hf
  have herror := List.filter_eq_nil_iff.1 h f hf
  rw [Bool.not_eq_true] at herror
  rw [herror]
  rfl

namespace Render

/-- What the last line of a report says. -/
inductive Verdict where
  /-- There is no finding. -/
  | clean
  /-- There is no error, but there are warnings. -/
  | passed (warnings : Nat)
  /-- There are errors. -/
  | failed (errors : Nat)
  /-- There is no report at all. -/
  | uninspected
deriving DecidableEq

namespace Verdict

/-- A verdict as it is told to the user. -/
def line : Verdict → String
  | clean => "✓ All validations passed!"
  | passed warnings => "✓ Validation passed with " ++ countNoun warnings "warning"
  | failed errors => "✗ Validation failed with " ++ countNoun errors "error"
  | uninspected => "✗ Validation failed: the package could not be inspected"

/-- Whether a verdict is right about what a run ended with. -/
def Holds : Verdict → Except PackageError Report → Prop
  | clean, .ok r => r.findings = []
  | passed warnings, .ok r => r.errors = [] ∧ r.warnings.length = warnings ∧ 0 < warnings
  | failed errors, .ok r => r.errors.length = errors ∧ 0 < errors
  | uninspected, .error _ => True
  | _, _ => False

/-- The verdict on what a run ended with. -/
def ofResult : Except PackageError Report → Verdict
  | .ok r => if r.clean then clean else if r.passed then passed r.warnings.length else failed r.errors.length
  | .error _ => uninspected

/-! ## One verdict is right -/

/-- The verdict on what a run ended with is right. -/
theorem holds_ofResult (result : Except PackageError Report) : (ofResult result).Holds result := by
  cases result with
  | error e => trivial
  | ok r =>
    rw [ofResult]
    by_cases hclean : r.clean = true
    · rw [if_pos hclean]
      exact List.isEmpty_iff.1 hclean
    · have hne : r.findings ≠ [] := fun e => hclean (List.isEmpty_iff.2 e)
      rw [if_neg hclean]
      by_cases hpassed : r.passed = true
      · have herrors : r.errors = [] := List.isEmpty_iff.1 hpassed
        rw [if_pos hpassed]
        refine ⟨herrors, rfl, ?_⟩
        rw [Report.warnings_eq_findings herrors]
        exact List.length_pos_iff.2 hne
      · have herrors : r.errors ≠ [] := fun e => hpassed (List.isEmpty_iff.2 e)
        rw [if_neg hpassed]
        exact ⟨rfl, List.length_pos_iff.2 herrors⟩

theorem eq_nil_of_clean {r : Report} (h : r.clean = true) : r.errors = [] ∧ r.warnings = [] := by
  have hfindings : r.findings = [] := List.isEmpty_iff.1 h
  rw [Report.errors, Report.warnings, hfindings]
  exact ⟨rfl, rfl⟩

/-- No other verdict is right. -/
theorem ofResult_eq_of_holds {v : Verdict} {result : Except PackageError Report} (h : v.Holds result) : ofResult result = v := by
  cases v with
  | clean =>
    cases result with
    | error e => exact absurd h id
    | ok r =>
      have hclean : r.clean = true := List.isEmpty_iff.2 h
      rw [ofResult, if_pos hclean]
  | passed warnings =>
    cases result with
    | error e => exact absurd h id
    | ok r =>
      obtain ⟨herrors, rfl, hpos⟩ := h
      have hpassed : r.passed = true := List.isEmpty_iff.2 herrors
      have hclean : ¬r.clean = true := fun e => by
        rw [(eq_nil_of_clean e).2] at hpos
        exact Nat.lt_irrefl 0 hpos
      rw [ofResult, if_neg hclean, if_pos hpassed]
  | failed errors =>
    cases result with
    | error e => exact absurd h id
    | ok r =>
      obtain ⟨rfl, hpos⟩ := h
      have hpassed : ¬r.passed = true := fun e => by
        rw [List.isEmpty_iff.1 e] at hpos
        exact Nat.lt_irrefl 0 hpos
      have hclean : ¬r.clean = true := fun e => hpassed (List.isEmpty_iff.2 (eq_nil_of_clean e).1)
      rw [ofResult, if_neg hclean, if_neg hpassed]
  | uninspected =>
    cases result with
    | error e => rfl
    | ok r => exact absurd h id

/-- A verdict is right exactly when it is the verdict on what the run ended with. -/
theorem holds_iff {v : Verdict} {result : Except PackageError Report} : v.Holds result ↔ ofResult result = v := by
  constructor
  · exact ofResult_eq_of_holds
  · rintro rfl
    exact holds_ofResult result

end Verdict

/-! ## Verdicts have different lines -/

theorem exists_countNoun_eq (count : Nat) (noun : String) :
    ∃ ending, (ending = noun ∨ ending = noun ++ "s") ∧
      (countNoun count noun).toList = Nat.toDigits 10 count ++ ' ' :: ending.toList := by
  unfold countNoun
  split
  · exact ⟨noun, .inl rfl, by simp⟩
  · exact ⟨noun ++ "s", .inr rfl, by simp⟩

/-- A count can be told from its line. -/
theorem countNoun_injective (noun : String) : Function.Injective fun count => countNoun count noun := by
  have hread : ∀ count, Nat.ofDigitChars 10 ((countNoun count noun).toList.takeWhile Char.isDigit) 0 = count := by
    intro count
    obtain ⟨ending, -, hline⟩ := exists_countNoun_eq count noun
    have hdigits : ∀ d ∈ Nat.toDigits 10 count, d.isDigit = true := fun d hd =>
      Nat.isDigit_of_mem_toDigits (by decide) (by decide) hd
    rw [hline, Text.takeWhile_append_cons hdigits (by decide), Nat.ofDigitChars_ten_toDigits]
  intro m n h
  have h : countNoun m noun = countNoun n noun := h
  rw [← hread m, ← hread n, h]

namespace Verdict

/-- The start of the line of a verdict, which is as long for all of them. -/
def opening : Verdict → String
  | clean => "✓ All validations pa"
  | passed _ => "✓ Validation passed "
  | failed _ => "✗ Validation failed "
  | uninspected => "✗ Validation failed:"

theorem line_passed (warnings : Nat) : (passed warnings).line = "✓ Validation passed with " ++ countNoun warnings "warning" := rfl

theorem line_failed (errors : Nat) : (failed errors).line = "✗ Validation failed with " ++ countNoun errors "error" := rfl

/-- The line of a verdict starts with its opening. -/
theorem take_line (v : Verdict) : v.line.toList.take 20 = v.opening.toList := by
  cases v with
  | clean => decide
  | passed warnings =>
    have hopening : (passed warnings).opening = "✓ Validation passed " := rfl
    rw [line_passed, hopening, String.toList_append]
    simp only [String.reduceToList, List.cons_append, List.take_succ_cons, List.take_zero]
  | failed errors =>
    have hopening : (failed errors).opening = "✗ Validation failed " := rfl
    rw [line_failed, hopening, String.toList_append]
    simp only [String.reduceToList, List.cons_append, List.take_succ_cons, List.take_zero]
  | uninspected => decide

/-- Different verdicts have different lines. -/
theorem line_injective : Function.Injective line := by
  intro v w h
  have hopening : v.opening = w.opening := by
    rw [← String.toList_inj, ← take_line, ← take_line, h]
  unfold opening at hopening
  cases v <;> cases w <;> simp at hopening
  case clean.clean => rfl
  case passed.passed m n =>
    rw [line_passed, line_passed, String.append_right_inj] at h
    exact congrArg passed (countNoun_injective "warning" h)
  case failed.failed m n =>
    rw [line_failed, line_failed, String.append_right_inj] at h
    exact congrArg failed (countNoun_injective "error" h)
  case uninspected.uninspected => rfl

end Verdict

/-! ## The last line -/

/-- A count and a noun have no characters but digits, a blank and those of the noun. -/
theorem notMem_countNoun {c : Char} {noun : String} (hdigit : c.isDigit = false) (hnoun : c ∉ ' ' :: (noun ++ "s").toList)
    (count : Nat) : c ∉ (countNoun count noun).toList := by
  obtain ⟨ending, hending, hline⟩ := exists_countNoun_eq count noun
  rw [hline]
  intro hmem
  rcases List.mem_append.1 hmem with hmem | hmem
  · have hc := Nat.isDigit_of_mem_toDigits (by decide) (by decide) hmem
    rw [hdigit] at hc
    exact Bool.noConfusion hc
  · refine hnoun ?_
    rcases List.mem_cons.1 hmem with rfl | hmem
    · exact List.mem_cons_self
    · refine List.mem_cons_of_mem _ ?_
      rcases hending with rfl | rfl
      · rw [String.toList_append]
        exact List.mem_append_left _ hmem
      · exact hmem

/-- The line of a verdict has no line end in it. -/
theorem Verdict.notMem_line {c : Char} (hc : c = '\n' ∨ c = '\r') (v : Verdict) : c ∉ v.line.toList := by
  have hdigit : c.isDigit = false := by rcases hc with rfl | rfl <;> rfl
  cases v with
  | clean => rcases hc with rfl | rfl <;> decide
  | passed warnings =>
    have hstart : c ∉ "✓ Validation passed with ".toList := by rcases hc with rfl | rfl <;> simp
    have hnoun : c ∉ ' ' :: ("warning" ++ "s").toList := by rcases hc with rfl | rfl <;> simp
    rw [line_passed, String.toList_append, List.mem_append, not_or]
    exact ⟨hstart, notMem_countNoun hdigit hnoun warnings⟩
  | failed errors =>
    have hstart : c ∉ "✗ Validation failed with ".toList := by rcases hc with rfl | rfl <;> simp
    have hnoun : c ∉ ' ' :: ("error" ++ "s").toList := by rcases hc with rfl | rfl <;> simp
    rw [line_failed, String.toList_append, List.mem_append, not_or]
    exact ⟨hstart, notMem_countNoun hdigit hnoun errors⟩
  | uninspected => rcases hc with rfl | rfl <;> decide

/-- Written lines have a line feed behind each of them. -/
theorem isWhole_ofLines (ls : List String) : Text.IsWhole (ofLines ls).toList := by
  rcases List.eq_nil_or_concat ls with rfl | ⟨above, last, rfl⟩
  · exact .inl rfl
  · refine .inr ?_
    simp [ofLines]

/-- The last of the written lines is the last line of the text. -/
theorem getLast?_lines_ofLines {last : String} (h : Text.IsLine last.toList) (above : List String) :
    (Text.lines (ofLines (above ++ [last])).toList).getLast? = some last.toList := by
  have htext : (ofLines (above ++ [last])).toList = (ofLines above).toList ++ (last.toList ++ ['\n']) := by
    simp [ofLines]
  have hlast : Text.lines (last.toList ++ ['\n']) = [last.toList] := Text.lines_append_newline h []
  rw [htext, (isWhole_ofLines above).lines_append, hlast, List.getLast?_append]
  rfl

/-- The line of the verdict comes last among the lines of a report. -/
theorem exists_resultLines_eq (r : Report) : ∃ above, resultLines false r = above ++ [(Verdict.ofResult (.ok r)).line] := by
  rw [resultLines, Verdict.ofResult]
  by_cases hclean : r.clean = true
  · rw [if_pos hclean, if_pos hclean]
    exact ⟨[banner false], rfl⟩
  · have hline : verdictLine false r =
        (if r.passed then Verdict.passed r.warnings.length else Verdict.failed r.errors.length).line := by
      unfold verdictLine
      by_cases hpassed : r.passed = true
      · rw [if_pos hpassed, if_pos hpassed, Verdict.line_passed]
        rfl
      · rw [if_neg hpassed, if_neg hpassed, Verdict.line_failed]
        rfl
    rw [if_neg hclean, if_neg hclean, hline]
    refine ⟨banner false :: blockLines false .error r.errors ++ (if r.errors.isEmpty || r.warnings.isEmpty then [] else [""]) ++
      blockLines false .warning r.warnings ++ [""], ?_⟩
    rw [List.append_assoc _ [""]]
    rfl

/-- The line of the verdict comes last in what is printed as text. -/
theorem exists_outcome_eq (quiet : Bool) (root : Path) (result : Except PackageError Report) :
    ∃ above, outcome ⟨.text, quiet, false⟩ root result = ofLines (above ++ [(Verdict.ofResult result).line]) := by
  cases result with
  | error e =>
    refine ⟨(if quiet then [] else failureProgress false root e) ++
      [banner false, headingLine false .error 1, "  1. " ++ e.message, ""], ?_⟩
    rw [List.append_assoc]
    rfl
  | ok r =>
    obtain ⟨above, hresult⟩ := exists_resultLines_eq r
    refine ⟨(if quiet then [] else progressLines false root r) ++ above, ?_⟩
    rw [outcome, report, reportLines, hresult, List.append_assoc]

/-- The last line of what is printed as text is that of the only verdict that is right. -/
theorem getLast?_lines_outcome (quiet : Bool) (root : Path) (result : Except PackageError Report) (v : Verdict) :
    (Text.lines (outcome ⟨.text, quiet, false⟩ root result).toList).getLast? = some v.line.toList ↔ v.Holds result := by
  obtain ⟨above, htext⟩ := exists_outcome_eq quiet root result
  have hline : Text.IsLine (Verdict.ofResult result).line.toList :=
    ⟨Verdict.notMem_line (.inl rfl) _, fun h => Verdict.notMem_line (.inr rfl) _ (List.mem_of_getLast? h)⟩
  rw [htext, getLast?_lines_ofLines hline, Option.some_inj, String.toList_inj, Verdict.line_injective.eq_iff, Verdict.holds_iff]

end Render

end SkillLint
