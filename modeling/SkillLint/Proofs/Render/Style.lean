import Mathlib.Data.List.Forall2
import SkillLint.Proofs.Render.Blocks

/-!
# What color and quiet change

An escape sequence is an escape character and a bracket, digits and the letter m. Color puts such sequences into a text and changes
nothing else: without them, what is printed in color is what is printed plainly, provided that no text in it has an escape character
of its own. Quiet leaves out the progress, which stands before all else and does not depend on what was found, and JSON depends on
neither (`outcome_style`).
-/

namespace SkillLint

/-! ## The texts in what is printed -/

/-- The texts of a finding. -/
def Finding.texts (f : Finding) : List String :=
  [f.rule, f.message] ++
    match f.location with
    | some (.field key) => [key]
    | _ => []

/-- The texts of an error that its message does not have on its own account: those of the paths in it. -/
def PackageError.texts : PackageError → List String
  | .notFound root | .notDirectory root | .noDocument root => [root.text]
  | .unreadable document _ => [document.text]
  | .missingHeader => []

namespace Render

/-- The texts in what a run ended with. -/
def resultTexts : Except PackageError Report → List String
  | .ok r => r.checks ++ r.findings.flatMap Finding.texts
  | .error e => e.texts

/-! ## Escape sequences -/

/-- The number of characters of the escape sequence that a text starts with. -/
def sequenceLength? : List Char → Option Nat
  | '\x1b' :: '[' :: rest =>
    if (rest.takeWhile Char.isDigit).isEmpty then none
    else
      match rest.dropWhile Char.isDigit with
      | 'm' :: _ => some ((rest.takeWhile Char.isDigit).length + 3)
      | _ => none
  | _ => none

/-- A text without its escape sequences, behind `skip` characters that belong to an earlier one. -/
def strippedFrom : Nat → List Char → List Char
  | _, [] => []
  | skip + 1, _ :: rest => strippedFrom skip rest
  | 0, c :: rest =>
    match sequenceLength? (c :: rest) with
    | some size => strippedFrom (size - 1) rest
    | none => c :: strippedFrom 0 rest

/-- A text without its escape sequences. -/
def stripped (text : String) : String :=
  String.ofList (strippedFrom 0 text.toList)

/-- Characters that belong to an escape sequence are left out. -/
theorem strippedFrom_skip (front rest : List Char) : strippedFrom front.length (front ++ rest) = strippedFrom 0 rest := by
  induction front with
  | nil => rfl
  | cons c front ih => exact ih

/-- Only an escape character begins an escape sequence. -/
theorem sequenceLength?_cons_of_ne {c : Char} (h : c ≠ '\x1b') (rest : List Char) : sequenceLength? (c :: rest) = none := by
  unfold sequenceLength?
  split
  · rename_i e
    exact absurd (List.cons.inj e).1 h
  · rfl

/-- A sequence that puts on or ends an ink is an escape sequence. -/
theorem sequenceLength?_escape {parameter : String} (hne : parameter.toList ≠ [])
    (hdigits : ∀ c ∈ parameter.toList, c.isDigit = true) (rest : List Char) :
    sequenceLength? (escape parameter ++ rest) = some (escape parameter).length := by
  have htext : escape parameter ++ rest = '\x1b' :: '[' :: (parameter.toList ++ 'm' :: rest) := by simp [escape]
  have hnonempty : parameter.toList.isEmpty = false := List.isEmpty_eq_false_iff.2 hne
  rw [htext, sequenceLength?, Text.takeWhile_append_cons hdigits rfl, Text.dropWhile_append_cons hdigits rfl, hnonempty,
    if_neg Bool.false_ne_true]
  simp [escape]

/-- A text in which no ink is ended is the same when the ink is renewed in it. -/
theorem renew_of_notMem {text : List Char} (h : '\x1b' ∉ text) (start : List Char) : renew start text = text := by
  induction text with
  | nil => rfl
  | cons c text ih =>
    obtain ⟨hc, htext⟩ := not_or.1 fun e => h (List.mem_cons.2 e)
    unfold renew
    split
    · rename_i e
      exact absurd (List.cons.inj e).1.symm hc
    · rename_i e
      obtain ⟨rfl, rfl⟩ := List.cons.inj e
      rw [ih htext]
    · rename_i e
      exact nomatch e

/-! ## Texts that show others -/

theorem ofLines_cons (line : String) (lines : List String) : ofLines (line :: lines) = line ++ "\n" ++ ofLines lines := by
  simp [ofLines]

theorem ofLines_append (front back : List String) : ofLines (front ++ back) = ofLines front ++ ofLines back := by
  simp [ofLines]

/-- Whether a text shows a plain one: without escape sequences it is the plain one, whatever stands behind it. -/
def Shows (text plain : String) : Prop :=
  ∀ rest, strippedFrom 0 (text.toList ++ rest) = plain.toList ++ strippedFrom 0 rest

namespace Shows

variable {text plain text' plain' : String}

theorem stripped_eq (h : Shows text plain) : stripped text = plain := by
  have hend := h []
  rw [List.append_nil, strippedFrom, List.append_nil] at hend
  rw [stripped, hend, String.ofList_toList]

theorem append (h : Shows text plain) (h' : Shows text' plain') : Shows (text ++ text') (plain ++ plain') := by
  intro rest
  rw [String.toList_append, List.append_assoc, h, h', String.toList_append, List.append_assoc]

/-- A text without escape characters shows itself. -/
theorem self (h : '\x1b' ∉ text.toList) : Shows text text := by
  intro rest
  generalize text.toList = s at h
  induction s with
  | nil => rfl
  | cons c s ih =>
    obtain ⟨hc, hs⟩ := not_or.1 fun e => h (List.mem_cons.2 e)
    rw [List.cons_append, strippedFrom, sequenceLength?_cons_of_ne (Ne.symm hc)]
    exact congrArg (c :: ·) (ih hs)

/-- A sequence that puts on or ends an ink shows nothing. -/
theorem sequence {parameter : String} (hne : parameter.toList ≠ []) (hdigits : ∀ c ∈ parameter.toList, c.isDigit = true) :
    Shows (String.ofList (escape parameter)) "" := by
  intro rest
  obtain ⟨c, more, hmore⟩ : ∃ c more, escape parameter = c :: more := ⟨_, _, rfl⟩
  have hlength := sequenceLength?_escape hne hdigits rest
  rw [hmore, List.cons_append] at hlength
  rw [String.toList_ofList, hmore, List.cons_append, strippedFrom, hlength]
  exact strippedFrom_skip more rest

/-- A painted text shows the text. -/
theorem painted (ink : Ink) (h : '\x1b' ∉ text.toList) : Shows (paint true ink text) (paint false ink text) := by
  have hparts : paint true ink text = String.ofList (escape ink.parameter) ++ text ++ String.ofList reset := by
    rw [paint, if_pos rfl, renew_of_notMem h, String.ofList_append, String.ofList_append, String.ofList_toList]
  have hstart : Shows (String.ofList (escape ink.parameter)) "" := by
    cases ink <;> exact sequence (by decide) (List.all_eq_true.1 (by decide))
  have hreset : Shows (String.ofList reset) "" := sequence (by decide) (List.all_eq_true.1 (by decide))
  have hplain : paint false ink text = "" ++ text ++ "" := by simp [paint]
  rw [hparts, hplain]
  exact (hstart.append (self h)).append hreset

/-- The text that lines make up shows the one that the lines they show make up. -/
theorem ofLines {lines plains : List String} (h : List.Forall₂ Shows lines plains) :
    Shows (ofLines lines) (ofLines plains) := by
  induction h with
  | nil => exact self (by simp [Render.ofLines])
  | @cons line plain lines plains hline hlines ih =>
    rw [ofLines_cons, ofLines_cons]
    exact (hline.append (self (by simp))).append ih

end Shows

/-! ## What is printed -/

theorem shows_severityIcon (severity : Severity) : Shows (severityIcon true severity) (severityIcon false severity) := by
  cases severity <;> exact .painted _ (by simp)

theorem shows_openingLine {root : Path} (h : '\x1b' ∉ root.text.toList) : Shows (openingLine root) (openingLine root) := by
  refine .self ?_
  rw [toList_openingLine, List.mem_append, not_or]
  exact ⟨by simp, h⟩

theorem shows_doneLine {what : String} (h : '\x1b' ∉ what.toList) : Shows (doneLine true what) (doneLine false what) :=
  ((Shows.painted .green (by simp)).append (.self (by simp))).append (.self h)

theorem shows_banner : Shows (banner true) (banner false) :=
  .painted .cyan (by simp [separator])

/-- A heading in color shows the plain one. -/
theorem shows_headingLine (severity : Severity) (count : Nat) :
    Shows (headingLine true severity count) (headingLine false severity count) := by
  refine ((shows_severityIcon severity).append (.self (by simp))).append (.painted _ ?_)
  have hcount : '\x1b' ∉ (toString count).toList := notMem_toString rfl count
  cases severity <;> simp [severityNoun, hcount, -Nat.toString_eq_repr]

/-- A numbered finding in color shows the plain one. -/
theorem shows_findingLine (number : Nat) {f : Finding} (hrule : '\x1b' ∉ f.rule.toList) (htext : '\x1b' ∉ f.text.toList) :
    Shows (findingLine true number f) (findingLine false number f) := by
  have hnumber : '\x1b' ∉ ("  " ++ toString number ++ ". ").toList := by
    simp [notMem_toString (c := '\x1b') rfl number, -Nat.toString_eq_repr]
  have hcode : '\x1b' ∉ ("[" ++ f.rule ++ "]").toList := by simp [hrule]
  exact (((Shows.self hnumber).append (.painted .dim hcode)).append (.self (by simp))).append (.self htext)

/-- Numbered findings in color show the plain ones. -/
theorem shows_numberedLines {fs : List Finding} (h : ∀ f ∈ fs, '\x1b' ∉ f.rule.toList ∧ '\x1b' ∉ f.text.toList) (number : Nat) :
    List.Forall₂ Shows (numberedLines true number fs) (numberedLines false number fs) := by
  induction fs generalizing number with
  | nil => exact .nil
  | cons f fs ih =>
    obtain ⟨hrule, htext⟩ := h f List.mem_cons_self
    exact .cons (shows_findingLine number hrule htext) (ih (fun g hg => h g (List.mem_cons_of_mem _ hg)) (number + 1))

/-- The lines of the findings of one severity in color show the plain ones. -/
theorem shows_blockLines {fs : List Finding} (h : ∀ f ∈ fs, '\x1b' ∉ f.rule.toList ∧ '\x1b' ∉ f.text.toList)
    (severity : Severity) : List.Forall₂ Shows (blockLines true severity fs) (blockLines false severity fs) := by
  unfold blockLines
  split
  · exact .nil
  · exact .cons (shows_headingLine severity _) (shows_numberedLines h 1)

/-- The verdict in color shows the plain one. -/
theorem shows_verdictLine (r : Report) : Shows (verdictLine true r) (verdictLine false r) := by
  have hwarnings : '\x1b' ∉ (countNoun r.warnings.length "warning").toList := notMem_countNoun rfl (by simp) _
  have herrors : '\x1b' ∉ (countNoun r.errors.length "error").toList := notMem_countNoun rfl (by simp) _
  unfold verdictLine
  split
  · exact ((Shows.painted .green (by simp)).append (.self (by simp))).append (.painted .green (by simp [hwarnings]))
  · exact ((shows_severityIcon .error).append (.self (by simp))).append (.painted .red (by simp [herrors]))

/-- The lines below the progress in color show the plain ones. -/
theorem shows_resultLines {r : Report} (h : ∀ f ∈ r.findings, '\x1b' ∉ f.rule.toList ∧ '\x1b' ∉ f.text.toList) :
    List.Forall₂ Shows (resultLines true r) (resultLines false r) := by
  have hempty : Shows "" "" := .self (by simp)
  unfold resultLines
  split
  · have hclean : Shows (paint true .green "All validations passed!") (paint false .green "All validations passed!") :=
      .painted .green (by simp)
    exact .cons shows_banner (.cons (((Shows.painted .green (by simp)).append (.self (by simp))).append hclean) .nil)
  · have herrors : List.Forall₂ Shows (blockLines true .error r.errors) (blockLines false .error r.errors) :=
      shows_blockLines (fun f hf => h f (List.mem_of_mem_filter hf)) .error
    have hwarnings : List.Forall₂ Shows (blockLines true .warning r.warnings) (blockLines false .warning r.warnings) :=
      shows_blockLines (fun f hf => h f (List.mem_of_mem_filter hf)) .warning
    have hbetween : List.Forall₂ Shows (if r.errors.isEmpty || r.warnings.isEmpty then [] else [""])
        (if r.errors.isEmpty || r.warnings.isEmpty then [] else [""]) := by
      split
      · exact .nil
      · exact .cons hempty .nil
    exact List.rel_append (List.rel_append (List.rel_append (.cons shows_banner herrors) hbetween) hwarnings)
      (.cons hempty (.cons (shows_verdictLine r) .nil))

/-- The lines of a failed run below the progress in color show the plain ones. -/
theorem shows_failureResult {e : PackageError} (h : '\x1b' ∉ e.message.toList) :
    List.Forall₂ Shows (failureResult true e) (failureResult false e) := by
  have hitem : '\x1b' ∉ ("  1. " ++ e.message).toList := by simp [h]
  have hverdict : Shows (paint true .red "Validation failed: the package could not be inspected")
      (paint false .red "Validation failed: the package could not be inspected") := .painted .red (by simp)
  exact .cons shows_banner (.cons (shows_headingLine .error 1) (.cons (.self hitem) (.cons (.self (by simp))
    (.cons (((shows_severityIcon .error).append (.self (by simp))).append hverdict) .nil))))

/-- The progress in color shows the plain one. -/
theorem shows_progressLines {root : Path} {r : Report} (hroot : '\x1b' ∉ root.text.toList)
    (hchecks : ∀ check ∈ r.checks, '\x1b' ∉ check.toList) :
    List.Forall₂ Shows (progressLines true root r) (progressLines false root r) := by
  have hdone : List.Forall₂ Shows (r.checks.map fun check => doneLine true ("Checked " ++ check))
      (r.checks.map fun check => doneLine false ("Checked " ++ check)) := by
    rw [List.forall₂_map_left_iff, List.forall₂_map_right_iff, List.forall₂_same]
    exact fun check hcheck => shows_doneLine (by simp [hchecks check hcheck])
  refine List.rel_append (List.rel_append (.cons (shows_openingLine hroot) (.cons (shows_doneLine ?_) (.cons (shows_doneLine ?_) .nil))) hdone)
    (.cons (.self (by simp)) .nil)
  · simp [documentName]
  · simp

/-- The progress of a failed run in color shows the plain one. -/
theorem shows_failureProgress {root : Path} (hroot : '\x1b' ∉ root.text.toList) (e : PackageError) :
    List.Forall₂ Shows (failureProgress true root e) (failureProgress false root e) := by
  refine List.rel_append (List.rel_append (.cons (shows_openingLine hroot) .nil) ?_) (.cons (.self (by simp)) .nil)
  split
  · exact .cons (shows_doneLine (by simp [documentName])) .nil
  · exact .nil

/-- The message of an error has no characters but those of the paths in it and of fixed words. -/
theorem notMem_message {e : PackageError} (h : ∀ text ∈ e.texts, '\x1b' ∉ text.toList) : '\x1b' ∉ e.message.toList := by
  have happend : ∀ s s' : String, '\x1b' ∉ s.toList → '\x1b' ∉ s'.toList → '\x1b' ∉ (s ++ s').toList := fun s s' hs hs' => by
    rw [String.toList_append, List.mem_append, not_or]
    exact ⟨hs, hs'⟩
  cases e with
  | notFound root => exact happend _ _ (by simp) (h root.text List.mem_cons_self)
  | notDirectory root => exact happend _ _ (by simp) (h root.text List.mem_cons_self)
  | noDocument root => exact happend _ _ (by simp [documentName]) (h root.text List.mem_cons_self)
  | unreadable document cause =>
    have hcause : '\x1b' ∉ cause.message.toList := by cases cause <;> simp [FileError.message]
    exact happend _ _ (happend _ _ (happend _ _ (by simp) (h document.text List.mem_cons_self)) (by simp)) hcause
  | missingHeader => decide

/-- A finding's rule and its text with the location have no characters but those of its texts and of a number. -/
theorem notMem_of_texts {f : Finding} (h : ∀ text ∈ f.texts, '\x1b' ∉ text.toList) :
    '\x1b' ∉ f.rule.toList ∧ '\x1b' ∉ f.text.toList := by
  refine ⟨h _ (by simp [Finding.texts]), notMem_text rfl (by simp) (h _ (by simp [Finding.texts])) fun key hlocation => ?_⟩
  exact h key (by simp [Finding.texts, hlocation])

/-! ## Main statement -/

/-- What is printed as text before what the run ended with, unless it is left out. -/
def progressText (color : Bool) (root : Path) : Except PackageError Report → String
  | .ok r => ofLines (progressLines color root r)
  | .error e => ofLines (failureProgress color root e)

/-- What is printed as text of what the run ended with. -/
def resultText (color : Bool) : Except PackageError Report → String
  | .ok r => ofLines (resultLines color r)
  | .error e => ofLines (failureResult color e)

/-- What is printed as text is the progress, unless it is left out, and behind it what the run ended with. -/
theorem outcome_text (quiet color : Bool) (root : Path) (result : Except PackageError Report) :
    outcome ⟨.text, quiet, color⟩ root result =
      (if quiet then "" else progressText color root result) ++ resultText color result := by
  cases result with
  | ok r =>
    cases quiet with
    | true => exact (String.empty_append).symm
    | false => exact ofLines_append _ _
  | error e =>
    cases quiet with
    | true => exact (String.empty_append).symm
    | false => exact ofLines_append _ _

/-- What is printed in color shows what is printed plainly, progress and result alike. -/
theorem shows_texts {root : Path} {result : Except PackageError Report}
    (h : ∀ text ∈ root.text :: resultTexts result, '\x1b' ∉ text.toList) :
    Shows (progressText true root result) (progressText false root result) ∧
      Shows (resultText true result) (resultText false result) := by
  obtain ⟨hroot, htexts⟩ := List.forall_mem_cons.1 h
  cases result with
  | error e => exact ⟨.ofLines (shows_failureProgress hroot e), .ofLines (shows_failureResult (notMem_message htexts))⟩
  | ok r =>
    obtain ⟨hchecks, hfindings⟩ := List.forall_mem_append.1 htexts
    exact ⟨.ofLines (shows_progressLines hroot hchecks), .ofLines (shows_resultLines fun f hf =>
      notMem_of_texts fun text htext => hfindings text (List.mem_flatMap.2 ⟨f, hf, htext⟩))⟩

/-- Where no text has an escape character in it, what is printed in color is, without its escape sequences, what is printed plainly,
whether or not the progress is left out. In either color the progress comes first, from the line that names the package on; behind it
stands exactly what is printed without it, and it is the same for all reports of the same checks. JSON is the same in every
style. -/
theorem outcome_style (root : Path) (result : Except PackageError Report) :
    ((∀ text ∈ root.text :: resultTexts result, '\x1b' ∉ text.toList) → ∀ quiet,
      stripped (outcome ⟨.text, quiet, true⟩ root result) = outcome ⟨.text, quiet, false⟩ root result) ∧
    (∀ color,
      outcome ⟨.text, false, color⟩ root result =
        progressText color root result ++ outcome ⟨.text, true, color⟩ root result ∧
      (∃ more, progressText color root result = openingLine root ++ "\n" ++ more) ∧
      ∀ r findings, result = .ok r → progressText color root (.ok { r with findings }) = progressText color root result) ∧
    ∀ quiet color quiet' color', outcome ⟨.json, quiet, color⟩ root result = outcome ⟨.json, quiet', color'⟩ root result := by
  refine ⟨fun h quiet => ?_, fun color => ⟨?_, ?_, ?_⟩, fun _ _ _ _ => ?_⟩
  · obtain ⟨hprogress, hresult⟩ := shows_texts h
    have hfront : Shows (if quiet then "" else progressText true root result)
        (if quiet then "" else progressText false root result) := by
      cases quiet with
      | true => exact .self (by simp)
      | false => exact hprogress
    rw [outcome_text, outcome_text]
    exact (hfront.append hresult).stripped_eq
  · rw [outcome_text, outcome_text, if_neg Bool.false_ne_true, if_pos rfl, String.empty_append]
  · cases result with
    | ok r => exact ⟨_, ofLines_cons _ _⟩
    | error e => exact ⟨_, ofLines_cons _ _⟩
  · rintro r findings rfl
    rfl
  · cases result with
    | ok r => rfl
    | error e => rfl

/-- An error and a warning in whose text there is part of an escape sequence: color changes what is printed, and without the sequences
that it puts there only those are missing. -/
theorem outcome_style_mixed :
    let result : Except PackageError Report := .ok ⟨["names"],
      [⟨.warning, "body/size", "too [31m long", none⟩, ⟨.error, "name/missing", "no name", some (.field "name")⟩]⟩
    (∀ text ∈ "pack" :: resultTexts result, '\x1b' ∉ text.toList) ∧
      outcome ⟨.text, true, true⟩ ⟨"pack"⟩ result ≠ outcome ⟨.text, true, false⟩ ⟨"pack"⟩ result ∧
      stripped (outcome ⟨.text, true, true⟩ ⟨"pack"⟩ result) = outcome ⟨.text, true, false⟩ ⟨"pack"⟩ result := by
  intro result
  have htexts : ∀ text ∈ "pack" :: resultTexts result, '\x1b' ∉ text.toList := by decide
  exact ⟨htexts, by decide +kernel, (outcome_style ⟨"pack"⟩ result).1 htexts true⟩

end Render

end SkillLint
