import SkillLint.Proofs.Render.Verdict

/-!
# Every finding has one line

The lines of a report as text are read back: a heading with the count in it, and the numbered lines under it (`readBlocks`). What is
read is a block for the errors and a block for the warnings, each only if there are some, and in each block the findings of that
severity in report order, numbered from one on (`readBlocks_report`). No other line is numbered, whatever the texts of the report
are, provided that they have no line feeds in them.
-/

namespace SkillLint.Render

/-! ## Reading blocks -/

/-- The number that a text starts with, and what stands behind it. -/
def readCount? (s : List Char) : Option (Nat × List Char) :=
  if (s.takeWhile Char.isDigit).isEmpty then none
  else some (Nat.ofDigitChars 10 (s.takeWhile Char.isDigit) 0, s.dropWhile Char.isDigit)

/-- What stands before and behind the count in a heading. -/
def headingParts : Severity → String × String
  | .error => ("✗ Found ", " error(s):")
  | .warning => ("⚠ Found ", " warning(s):")

/-- The count in a line, if it is a heading over findings of a severity. -/
def countOf? (severity : Severity) (line : List Char) : Option Nat := do
  let (count, rest) ← readCount? (← line.dropPrefix? (headingParts severity).1.toList)
  if rest = (headingParts severity).2.toList then some count else none

/-- The severity and the count that a line gives, if it is a heading. -/
def headingOf? (line : List Char) : Option (Severity × Nat) :=
  match countOf? .error line, countOf? .warning line with
  | some count, _ => some (.error, count)
  | none, some count => some (.warning, count)
  | none, none => none

/-- The number of a line and the text behind it, if the line is numbered. -/
def itemOf? (line : List Char) : Option (Nat × String) := do
  let (number, rest) ← readCount? (← line.dropPrefix? "  ".toList)
  return (number, String.ofList (← rest.dropPrefix? ". ".toList))

/-- A heading with the numbered lines under it. -/
structure Block where
  severity : Severity
  count : Nat
  items : List (Nat × String)

/-- The numbered lines before the first heading, and the blocks: to each heading belong the numbered lines between it and the next
one. -/
def readBlocks : List (List Char) → List (Nat × String) × List Block
  | [] => ([], [])
  | line :: more =>
    match headingOf? line, itemOf? line with
    | some (severity, count), _ => ([], ⟨severity, count, (readBlocks more).1⟩ :: (readBlocks more).2)
    | none, some item => (item :: (readBlocks more).1, (readBlocks more).2)
    | none, none => readBlocks more

/-- Some findings with their numbers, from the given one on, each with its rule and its text. -/
def itemsFrom (number : Nat) (fs : List Finding) : List (Nat × String) :=
  (fs.zipIdx number).map fun (f, i) => (i, "[" ++ f.rule ++ "] " ++ f.text)

/-- The block of some findings of one severity: none if there are no findings. -/
def blocksOf (severity : Severity) (fs : List Finding) : List Block :=
  if fs = [] then [] else [⟨severity, fs.length, itemsFrom 1 fs⟩]

/-! ## Lines -/

/-- Whether a line is neither a heading nor numbered. -/
def IsOther (line : List Char) : Prop :=
  headingOf? line = none ∧ itemOf? line = none

/-- A number is read back from its digits. -/
theorem readCount?_toDigits (n : Nat) {c : Char} (hc : c.isDigit = false) (rest : List Char) :
    readCount? (Nat.toDigits 10 n ++ c :: rest) = some (n, c :: rest) := by
  have hdigits : ∀ d ∈ Nat.toDigits 10 n, d.isDigit = true := fun d hd =>
    Nat.isDigit_of_mem_toDigits (by decide) (by decide) hd
  have hne : (Nat.toDigits 10 n).isEmpty = false := List.isEmpty_eq_false_iff.2 (Nat.toDigits_ne_nil)
  rw [readCount?, Text.takeWhile_append_cons hdigits hc, Text.dropWhile_append_cons hdigits hc, hne,
    Nat.ofDigitChars_ten_toDigits]
  rfl

/-- A line that starts otherwise than the headings over findings of a severity is none. -/
theorem countOf?_eq_none {severity : Severity} {line : List Char} (h : ¬(headingParts severity).1.toList <+: line) :
    countOf? severity line = none := by
  have hdrop : line.dropPrefix? (headingParts severity).1.toList = none := by
    rw [Option.eq_none_iff_forall_ne_some]
    intro rest hrest
    obtain ⟨front, hline, hfront⟩ := List.dropPrefix?_eq_some_iff.1 hrest
    exact h ⟨rest, by rw [hline, eq_of_beq hfront]⟩
  rw [countOf?, hdrop]
  rfl

/-- A line that does not start with two blanks is not numbered. -/
theorem itemOf?_eq_none {line : List Char} (h : ¬[' ', ' '] <+: line) : itemOf? line = none := by
  have hdrop : line.dropPrefix? "  ".toList = none := by
    rw [Option.eq_none_iff_forall_ne_some]
    intro rest hrest
    obtain ⟨front, hline, hfront⟩ := List.dropPrefix?_eq_some_iff.1 hrest
    exact h ⟨rest, by rw [hline, eq_of_beq hfront]; rfl⟩
  rw [itemOf?, hdrop]
  rfl

/-- A line that starts neither like a heading nor with two blanks is another line. -/
theorem IsOther.of_front {line : List Char} (herror : ¬"✗ Found ".toList <+: line) (hwarning : ¬"⚠ Found ".toList <+: line)
    (hblanks : ¬[' ', ' '] <+: line) : IsOther line := by
  refine ⟨?_, itemOf?_eq_none hblanks⟩
  have hnoError : countOf? .error line = none := countOf?_eq_none herror
  have hnoWarning : countOf? .warning line = none := countOf?_eq_none hwarning
  rw [headingOf?, hnoError, hnoWarning]

/-- The count of a heading is read. -/
theorem countOf?_heading (severity : Severity) (count : Nat) :
    countOf? severity ((headingParts severity).1.toList ++ (Nat.toDigits 10 count ++ (headingParts severity).2.toList)) =
      some count := by
  obtain ⟨rest, hrest⟩ : ∃ rest, (headingParts severity).2.toList = ' ' :: rest := by
    cases severity
    · exact ⟨_, rfl⟩
    · exact ⟨_, rfl⟩
  rw [countOf?, List.dropPrefix?_append_of_beq _ (beq_self_eq_true _), hrest]
  simp only [Option.bind_eq_bind, Option.bind_some, readCount?_toDigits count (c := ' ') rfl, if_true]

/-- A heading is read. -/
theorem headingOf?_headingLine (severity : Severity) (count : Nat) :
    headingOf? (headingLine false severity count).toList = some (severity, count) := by
  have hline : (headingLine false severity count).toList =
      (headingParts severity).1.toList ++ (Nat.toDigits 10 count ++ (headingParts severity).2.toList) := by
    cases severity <;> simp [headingLine, headingParts, severityIcon, severityNoun, paint]
  rw [headingOf?, hline]
  cases severity with
  | error => rw [countOf?_heading]
  | warning =>
    have hnone : countOf? .error ((headingParts .warning).1.toList ++
        (Nat.toDigits 10 count ++ (headingParts .warning).2.toList)) = none :=
      countOf?_eq_none (by simp [headingParts])
    rw [hnone, countOf?_heading]

/-- A finding with its number is no heading, and its number and its text are read. -/
theorem itemOf?_findingLine (number : Nat) (f : Finding) : headingOf? (findingLine false number f).toList = none ∧
    itemOf? (findingLine false number f).toList = some (number, "[" ++ f.rule ++ "] " ++ f.text) := by
  have hline : (findingLine false number f).toList =
      "  ".toList ++ (Nat.toDigits 10 number ++ (". ".toList ++ ("[" ++ f.rule ++ "] " ++ f.text).toList)) := by
    simp [findingLine, paint]
  rw [hline]
  constructor
  · rw [headingOf?, countOf?_eq_none (by simp [headingParts]), countOf?_eq_none (by simp [headingParts])]
  · have hcount : readCount? (Nat.toDigits 10 number ++ (". ".toList ++ ("[" ++ f.rule ++ "] " ++ f.text).toList)) =
        some (number, ". ".toList ++ ("[" ++ f.rule ++ "] " ++ f.text).toList) :=
      readCount?_toDigits number (c := '.') rfl _
    rw [itemOf?, List.dropPrefix?_append_of_beq _ (beq_self_eq_true _)]
    simp only [Option.bind_eq_bind, Option.bind_some, hcount, List.dropPrefix?_append_of_beq _ (beq_self_eq_true _),
      String.ofList_toList]
    rfl

/-! ## The lines of a report -/

/-- Other lines before some lines make no difference. -/
theorem readBlocks_append_of_isOther {above : List (List Char)} (h : ∀ line ∈ above, IsOther line) (more : List (List Char)) :
    readBlocks (above ++ more) = readBlocks more := by
  induction above with
  | nil => rfl
  | cons line above ih =>
    obtain ⟨hheading, hitem⟩ := h line List.mem_cons_self
    rw [List.cons_append, readBlocks, hheading, hitem]
    exact ih fun l hl => h l (List.mem_cons_of_mem _ hl)

/-- Numbered findings are read with their numbers, before what is read of the lines behind them. -/
theorem readBlocks_numberedLines (number : Nat) (fs : List Finding) (more : List (List Char)) :
    readBlocks ((numberedLines false number fs).map String.toList ++ more) =
      (itemsFrom number fs ++ (readBlocks more).1, (readBlocks more).2) := by
  induction fs generalizing number with
  | nil => rfl
  | cons f fs ih =>
    obtain ⟨hheading, hitem⟩ := itemOf?_findingLine number f
    rw [numberedLines, List.map_cons, List.cons_append, readBlocks, hheading, hitem, ih]
    rfl

/-- The lines of the findings of one severity are read as their block, when no numbered line stands behind them that is under no
heading. -/
theorem readBlocks_blockLines {more : List (List Char)} (h : (readBlocks more).1 = []) (severity : Severity) (fs : List Finding) :
    readBlocks ((blockLines false severity fs).map String.toList ++ more) =
      ((readBlocks more).1, blocksOf severity fs ++ (readBlocks more).2) := by
  cases fs with
  | nil => rfl
  | cons f fs =>
    have hlines : (blockLines false severity (f :: fs)).map String.toList ++ more =
        (headingLine false severity (f :: fs).length).toList ::
          ((numberedLines false 1 (f :: fs)).map String.toList ++ more) := rfl
    rw [hlines, readBlocks, headingOf?_headingLine, readBlocks_numberedLines, h, List.append_nil]
    rfl

theorem toList_openingLine (root : Path) :
    (openingLine root).toList = "Validating skill package: ".toList ++ root.text.toList :=
  String.toList_append

theorem toList_doneLine (what : String) : (doneLine false what).toList = '✓' :: ' ' :: what.toList := by
  simp [doneLine, successIcon, paint]

theorem isOther_done (what : List Char) : IsOther ('✓' :: what) :=
  .of_front (by simp) (by simp) (by simp)

theorem isOther_nil : IsOther [] :=
  .of_front (by simp) (by simp) (by simp)

/-- The line across the page is another line. -/
theorem isOther_banner : IsOther (banner false).toList := by
  have hline : (banner false).toList = '━' :: List.replicate 59 '━' := by
    rw [banner, paint, if_neg Bool.false_ne_true, separator, String.toList_ofList]
    rfl
  rw [hline]
  exact .of_front (by simp) (by simp) (by simp)

/-- The progress has other lines only. -/
theorem isOther_of_mem_progressLines {root : Path} {r : Report} {line : String} (h : line ∈ progressLines false root r) :
    IsOther line.toList := by
  have hdone : ∀ what, IsOther (doneLine false what).toList := fun what => by
    rw [toList_doneLine]
    exact isOther_done _
  simp only [progressLines, List.cons_append, List.nil_append, List.mem_cons, List.mem_append, List.mem_map,
    List.not_mem_nil, or_false] at h
  rcases h with rfl | rfl | rfl | ⟨check, -, rfl⟩ | rfl
  · rw [toList_openingLine]
    exact .of_front (by simp) (by simp) (by simp)
  · exact hdone _
  · exact hdone _
  · exact hdone _
  · exact isOther_nil

/-- The verdict is another line. -/
theorem isOther_verdictLine (r : Report) : IsOther (verdictLine false r).toList := by
  unfold verdictLine
  split
  · have hline : (successIcon false ++ " " ++ paint false .green ("Validation passed with " ++
        countNoun r.warnings.length "warning")).toList =
        '✓' :: " Validation passed with ".toList ++ (countNoun r.warnings.length "warning").toList := by
      simp [successIcon, paint]
    rw [hline]
    exact isOther_done _
  · have hline : (severityIcon false .error ++ " " ++ paint false .red ("Validation failed with " ++
        countNoun r.errors.length "error")).toList =
        "✗ Validation failed with ".toList ++ (countNoun r.errors.length "error").toList := by
      simp [severityIcon, paint]
    rw [hline]
    exact .of_front (by simp) (by simp) (by simp)

theorem readBlocks_of_isOther {ls : List (List Char)} (h : ∀ line ∈ ls, IsOther line) : readBlocks ls = ([], []) := by
  have hread := readBlocks_append_of_isOther h []
  rwa [List.append_nil] at hread

/-- The errors and the warnings of a report are read from the lines below the progress, each in its block. -/
theorem readBlocks_resultLines (r : Report) :
    readBlocks ((resultLines false r).map String.toList ++ [[]]) =
      ([], blocksOf .error r.errors ++ blocksOf .warning r.warnings) := by
  by_cases hclean : r.clean = true
  · obtain ⟨herrors, hwarnings⟩ := Verdict.eq_nil_of_clean hclean
    rw [resultLines, if_pos hclean, herrors, hwarnings]
    exact readBlocks_of_isOther (List.forall_mem_cons.2 ⟨isOther_banner, List.forall_mem_cons.2
      ⟨isOther_done " All validations passed!".toList, List.forall_mem_singleton.2 isOther_nil⟩⟩)
  · have hbelow : readBlocks (["", verdictLine false r].map String.toList ++ [[]]) = ([], []) :=
      readBlocks_of_isOther (List.forall_mem_cons.2 ⟨isOther_nil, List.forall_mem_cons.2
        ⟨isOther_verdictLine r, List.forall_mem_singleton.2 isOther_nil⟩⟩)
    have hwarnings := readBlocks_blockLines (congrArg Prod.fst hbelow) .warning r.warnings
    rw [hbelow, List.append_nil] at hwarnings
    have hbetween : ∀ line ∈ (if r.errors.isEmpty || r.warnings.isEmpty then [] else [""]).map String.toList, IsOther line := by
      intro line hline
      split at hline
      · exact absurd hline List.not_mem_nil
      · rw [List.mem_singleton.1 hline]
        exact isOther_nil
    have hmiddle := readBlocks_append_of_isOther hbetween
      ((blockLines false .warning r.warnings).map String.toList ++ (["", verdictLine false r].map String.toList ++ [[]]))
    rw [hwarnings] at hmiddle
    have herrors := readBlocks_blockLines (congrArg Prod.fst hmiddle) .error r.errors
    rw [hmiddle] at herrors
    have hbanner : ∀ line ∈ [(banner false).toList], IsOther line := List.forall_mem_singleton.2 isOther_banner
    have habove := readBlocks_append_of_isOther hbanner
      ((blockLines false .error r.errors).map String.toList ++
        ((if r.errors.isEmpty || r.warnings.isEmpty then [] else [""]).map String.toList ++
          ((blockLines false .warning r.warnings).map String.toList ++
            (["", verdictLine false r].map String.toList ++ [[]]))))
    rw [resultLines, if_neg hclean, ← herrors, ← habove]
    simp only [List.map_append, List.map_cons, List.append_assoc, List.cons_append, List.nil_append]

/-! ## Line feeds -/

/-- Whether no text of a report, nor the place of its package, has a line feed in it. -/
structure Unbroken (root : Path) (r : Report) : Prop where
  root : '\n' ∉ root.text.toList
  checks : ∀ check ∈ r.checks, '\n' ∉ check.toList
  rules : ∀ f ∈ r.findings, '\n' ∉ f.rule.toList
  fields : ∀ f ∈ r.findings, ∀ key, f.location = some (.field key) → '\n' ∉ key.toList
  messages : ∀ f ∈ r.findings, '\n' ∉ f.message.toList

/-- Written lines are read back, with an empty one behind them. -/
theorem splitOn_ofLines {ls : List String} (h : ∀ line ∈ ls, '\n' ∉ line.toList) :
    (ofLines ls).toList.splitOn '\n' = ls.map String.toList ++ [[]] := by
  induction ls with
  | nil => rfl
  | cons line ls ih =>
    have htext : (ofLines (line :: ls)).toList = line.toList ++ '\n' :: (ofLines ls).toList := by simp [ofLines]
    have hmore : (ofLines ls).toList.splitOn '\n' = ls.map String.toList ++ [[]] :=
      ih fun l hl => h l (List.mem_cons_of_mem _ hl)
    rw [htext, List.splitOn_append_cons_self, hmore, List.splitOn_eq_singleton (h line List.mem_cons_self)]
    rfl

/-- A number has no characters but digits. -/
theorem notMem_toString {c : Char} (hdigit : c.isDigit = false) (n : Nat) : c ∉ (toString n).toList := by
  intro h
  rw [Nat.toString_eq_repr, Nat.toList_repr] at h
  have hc := Nat.isDigit_of_mem_toDigits (by decide) (by decide) h
  rw [hdigit] at hc
  exact Bool.noConfusion hc

/-- The text of a finding has no characters but those of its parts, of a number and of the words between them. -/
theorem notMem_text {c : Char} (hdigit : c.isDigit = false) (hwords : c ∉ "line ".toList ++ ": ".toList) {f : Finding}
    (hmessage : c ∉ f.message.toList) (hfield : ∀ key, f.location = some (.field key) → c ∉ key.toList) :
    c ∉ f.text.toList := by
  obtain ⟨hline, hcolon⟩ := not_or.1 fun h => hwords (List.mem_append.2 h)
  unfold Finding.text
  cases hlocation : f.location with
  | none => exact hmessage
  | some location =>
    cases location with
    | field key =>
      simp only [Location.text, String.toList_append, List.mem_append, not_or]
      exact ⟨⟨hfield key hlocation, hcolon⟩, hmessage⟩
    | line number =>
      simp only [Location.text, String.toList_append, List.mem_append, not_or]
      exact ⟨⟨⟨hline, notMem_toString hdigit number⟩, hcolon⟩, hmessage⟩

theorem newline_notMem_of_mem_numberedLines {fs : List Finding}
    (h : ∀ f ∈ fs, '\n' ∉ f.rule.toList ∧ '\n' ∉ f.text.toList) (number : Nat) :
    ∀ line ∈ numberedLines false number fs, '\n' ∉ line.toList := by
  induction fs generalizing number with
  | nil => exact fun line hline => absurd hline List.not_mem_nil
  | cons f fs ih =>
    obtain ⟨hrule, htext⟩ := h f List.mem_cons_self
    refine List.forall_mem_cons.2 ⟨?_, ih (fun g hg => h g (List.mem_cons_of_mem _ hg)) (number + 1)⟩
    simp [findingLine, paint, hrule, htext, notMem_toString (c := '\n') rfl, -Nat.toString_eq_repr]

theorem newline_notMem_of_mem_blockLines {fs : List Finding}
    (h : ∀ f ∈ fs, '\n' ∉ f.rule.toList ∧ '\n' ∉ f.text.toList) (severity : Severity) :
    ∀ line ∈ blockLines false severity fs, '\n' ∉ line.toList := by
  unfold blockLines
  split
  · exact fun line hline => absurd hline List.not_mem_nil
  · refine List.forall_mem_cons.2 ⟨?_, newline_notMem_of_mem_numberedLines h 1⟩
    cases severity <;>
      simp [headingLine, severityIcon, severityNoun, paint, notMem_toString (c := '\n') rfl, -Nat.toString_eq_repr]

/-- The lines below the progress have no line feeds in them if the findings have none. -/
theorem newline_notMem_of_mem_resultLines {r : Report}
    (h : ∀ f ∈ r.findings, '\n' ∉ f.rule.toList ∧ '\n' ∉ f.text.toList) :
    ∀ line ∈ resultLines false r, '\n' ∉ line.toList := by
  have hbanner : '\n' ∉ (banner false).toList := by simp [banner, paint, separator]
  have hempty : '\n' ∉ "".toList := by simp
  unfold resultLines
  split
  · refine List.forall_mem_cons.2 ⟨hbanner, List.forall_mem_singleton.2 ?_⟩
    simp [successIcon, paint]
  · have hverdict : '\n' ∉ (verdictLine false r).toList := by
      have hpassed : '\n' ∉ (countNoun r.warnings.length "warning").toList := notMem_countNoun rfl (by simp) _
      have hfailed : '\n' ∉ (countNoun r.errors.length "error").toList := notMem_countNoun rfl (by simp) _
      unfold verdictLine
      split
      · simp [successIcon, paint, hpassed]
      · simp [severityIcon, paint, hfailed]
    have herrors : ∀ line ∈ blockLines false .error r.errors, '\n' ∉ line.toList :=
      newline_notMem_of_mem_blockLines (fun f hf => h f (List.mem_of_mem_filter hf)) .error
    have hwarnings : ∀ line ∈ blockLines false .warning r.warnings, '\n' ∉ line.toList :=
      newline_notMem_of_mem_blockLines (fun f hf => h f (List.mem_of_mem_filter hf)) .warning
    have hbetween : ∀ line ∈ (if r.errors.isEmpty || r.warnings.isEmpty then [] else [""]), '\n' ∉ line.toList := by
      split
      · exact fun line hline => absurd hline List.not_mem_nil
      · exact List.forall_mem_singleton.2 hempty
    simp only [List.forall_mem_append]
    exact ⟨⟨⟨List.forall_mem_cons.2 ⟨hbanner, herrors⟩, hbetween⟩, hwarnings⟩,
      List.forall_mem_cons.2 ⟨hempty, List.forall_mem_singleton.2 hverdict⟩⟩

/-- The progress has no line feeds in it if the place of the package and the names of the checks have none. -/
theorem newline_notMem_of_mem_progressLines {root : Path} {r : Report} (hroot : '\n' ∉ root.text.toList)
    (hchecks : ∀ check ∈ r.checks, '\n' ∉ check.toList) : ∀ line ∈ progressLines false root r, '\n' ∉ line.toList := by
  unfold progressLines
  simp only [List.forall_mem_append, List.forall_mem_cons, List.forall_mem_map]
  refine ⟨⟨⟨?_, ?_, ?_, ?_⟩, fun check hcheck => ?_⟩, ?_, ?_⟩
  · rw [toList_openingLine, List.mem_append, not_or]
    exact ⟨by simp, hroot⟩
  · simp [toList_doneLine, documentName]
  · simp [toList_doneLine]
  · exact fun line hline => absurd hline List.not_mem_nil
  · simp [toList_doneLine, hchecks check hcheck]
  · simp
  · exact fun line hline => absurd hline List.not_mem_nil

/-! ## Main statement -/

theorem errors_eq_filter (r : Report) : r.errors = r.findings.filter (·.severity = .error) :=
  List.filter_congr fun f _ => by rw [Bool.eq_iff_iff, Finding.isError_iff, decide_eq_true_iff]

theorem warnings_eq_filter (r : Report) : r.warnings = r.findings.filter (·.severity = .warning) :=
  List.filter_congr fun f _ => by
    rw [Bool.eq_iff_iff, Bool.not_eq_true', Finding.not_isError_iff, decide_eq_true_iff]

/-- The numbered lines of a report as text are those of two blocks. Under a heading with the number of the errors stand the errors
in report order, numbered from one on, each with its rule and its text, and the warnings stand so under a heading of their own; a
block without findings is left out. Every finding is in one of the blocks, and as often as in the report. -/
theorem readBlocks_report (quiet : Bool) {root : Path} {r : Report} (h : Unbroken root r) :
    readBlocks ((report ⟨.text, quiet, false⟩ root r).toList.splitOn '\n') =
      ([], blocksOf .error (r.findings.filter (·.severity = .error)) ++
        blocksOf .warning (r.findings.filter (·.severity = .warning))) ∧
    (r.findings.filter (·.severity = .error) ++ r.findings.filter (·.severity = .warning)).Perm r.findings := by
  constructor
  · have hresult := newline_notMem_of_mem_resultLines fun f hf =>
      ⟨h.rules f hf, notMem_text rfl (by simp) (h.messages f hf) (h.fields f hf)⟩
    have hprogress : ∀ line ∈ (if quiet then [] else progressLines false root r), IsOther line.toList ∧ '\n' ∉ line.toList := by
      split
      · exact fun line hline => absurd hline List.not_mem_nil
      · exact fun line hline =>
          ⟨isOther_of_mem_progressLines hline, newline_notMem_of_mem_progressLines h.root h.checks line hline⟩
    have hlines : (report ⟨.text, quiet, false⟩ root r).toList.splitOn '\n' =
        (if quiet then [] else progressLines false root r).map String.toList ++
          ((resultLines false r).map String.toList ++ [[]]) := by
      rw [← List.append_assoc, ← List.map_append]
      exact splitOn_ofLines (List.forall_mem_append.2 ⟨fun line hline => (hprogress line hline).2, hresult⟩)
    rw [hlines, readBlocks_append_of_isOther (List.forall_mem_map.2 fun line hline => (hprogress line hline).1),
      readBlocks_resultLines, errors_eq_filter, warnings_eq_filter]
  · have hwarnings : r.findings.filter (·.severity = .warning) = r.findings.filter fun f => !decide (f.severity = .error) :=
      List.filter_congr fun f _ => by cases f.severity <;> rfl
    rw [hwarnings]
    exact List.filter_append_perm _ _

/-- Two errors with warnings between them and around them: each is numbered among those of its severity. -/
theorem readBlocks_report_mixed :
    let r : Report := ⟨["names"],
      [⟨.warning, "body/size", "too long", none⟩, ⟨.error, "name/missing", "no name", some (.field "name")⟩,
        ⟨.warning, "body/size", "too long", none⟩, ⟨.error, "reference/missing", "no file", some (.line 12)⟩]⟩
    Unbroken (Path.mk "pack") r ∧
      readBlocks ((report ⟨.text, false, false⟩ (Path.mk "pack") r).toList.splitOn '\n') =
        ([], [⟨.error, 2, [(1, "[name/missing] name: no name"), (2, "[reference/missing] line 12: no file")]⟩,
          ⟨.warning, 2, [(1, "[body/size] too long"), (2, "[body/size] too long")]⟩]) := by
  intro r
  have hunbroken : Unbroken (Path.mk "pack") r :=
    ⟨by decide, by decide, by decide, by simp [r], by decide⟩
  exact ⟨hunbroken, (readBlocks_report false hunbroken).1⟩

end SkillLint.Render
