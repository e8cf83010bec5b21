import SkillLint.Proofs.Package
import SkillLint.Proofs.Text.Continued

/-!
# Lines that say nothing

What changes when lines are put into a document that say nothing: whole lines before the header without a delimiter among them, or
a blank line or a comment between the two delimiters. The fields and the body stay, and every finding stays what it is, but for
the number of its line. The reader of a header goes the same way when the numbers of its lines are others (`readAll_mapLines`), and
so does each check when the body starts on another line (`run_mapLines`).
-/

namespace SkillLint

/-! ## Other line numbers -/

/-- The location with another line number. -/
def Location.mapLine (σ : Nat → Nat) : Location → Location
  | .field key => .field key
  | .line number => .line (σ number)

namespace Finding

/-- The finding with another line number. -/
def mapLine (σ : Nat → Nat) (f : Finding) : Finding :=
  { f with location := f.location.map (Location.mapLine σ) }

variable (σ : Nat → Nat)

@[simp] theorem mapLine_onLine (rule : Rule) (number : Nat) (message : String) :
    (rule.onLine number message).mapLine σ = rule.onLine (σ number) message := rfl

theorem keeps_mapLine (patterns : List String) (f : Finding) :
    Report.keeps patterns (f.mapLine σ) = Report.keeps patterns f := rfl

/-- Findings that are about no lines stay what they are. -/
theorem map_mapLine_eq_self {fs : List Finding} (h : ∀ f ∈ fs, ∀ number, f.location ≠ some (.line number)) :
    fs.map (mapLine σ) = fs := by
  have hself : ∀ f ∈ fs, mapLine σ f = f := by
    intro f hf
    have hne := h f hf
    obtain ⟨severity, rule, message, location⟩ := f
    cases location with
    | none => rfl
    | some location =>
      cases location with
      | field key => rfl
      | line number => exact absurd rfl (hne number)
  rw [List.map_congr_left hself, List.map_id']

theorem map_mapLine_listIf (condition : Bool) (f : Finding) :
    (listIf condition f).map (mapLine σ) = listIf condition (f.mapLine σ) := by
  cases condition <;> rfl

end Finding

/-- The report with other line numbers. -/
def Report.mapLines (σ : Nat → Nat) (r : Report) : Report :=
  { r with findings := r.findings.map (Finding.mapLine σ) }

/-! ## The header -/

namespace Header

variable (σ : Nat → Nat)

/-- The progress with other line numbers in its findings. -/
def Progress.mapLines (p : Progress) : Progress :=
  { p with findings := p.findings.map (Finding.mapLine σ) }

/-- The first entry of a key is entered in the same way on a line with another number. -/
theorem Progress.enter_mapLines (p : Progress) (number : Nat) (key : String) (value : List Char) :
    (p.mapLines σ).enter (σ number) key value = (p.enter number key value).mapLines σ := by
  unfold Progress.enter Progress.mapLines
  by_cases h1 : key = "name"
  · simp only [if_pos h1]
  · by_cases h2 : key = "description"
    · simp only [if_neg h1, if_pos h2]
    · by_cases h3 : key = "allowed-tools"
      · simp only [if_neg h1, if_neg h2, if_pos h3]
      · by_cases h4 : key ∈ knownKeys
        · simp only [if_neg h1, if_neg h2, if_neg h3, if_pos h4]
        · simp only [if_neg h1, if_neg h2, if_neg h3, if_neg h4, List.map_append, List.map_singleton, unknownKey,
            Finding.mapLine_onLine]

/-- One more line: it is read in the same way when it has another number. -/
theorem Progress.read_mapLines (p : Progress) (number : Nat) (line : Line) :
    (p.mapLines σ).read (σ number) line = (p.read number line).mapLines σ := by
  cases line with
  | filler => rfl
  | continuation => rfl
  | item text =>
    rw [Progress.read, Progress.read]
    have hcollecting : (p.mapLines σ).collecting = p.collecting := rfl
    rw [hcollecting]
    split
    · rfl
    · rfl
  | malformed text =>
    simp only [Progress.read, Progress.mapLines, List.map_append, List.map_singleton, malformedLine, Finding.mapLine_onLine]
  | entry key value =>
    simp only [Progress.read]
    have hseen : (p.mapLines σ).seen = p.seen := rfl
    rw [hseen]
    split
    · simp only [Progress.mapLines, List.map_append, List.map_singleton, duplicateKey, Finding.mapLine_onLine]
    · exact p.enter_mapLines σ number _ value

/-- More lines: they are read in the same way when they have other numbers, one after the other. -/
theorem Progress.readAll_mapLines {ls : List (List Char)} {number number' : Nat}
    (h : ∀ i < ls.length, σ (number + i) = number' + i) (p : Progress) :
    (p.mapLines σ).readAll number' ls = (p.readAll number ls).mapLines σ := by
  -- The progress and both numbers change from line to line; that they correspond carries the induction.
  induction ls generalizing p number number' with
  | nil => rfl
  | cons line rest ih =>
    have hfirst : σ number = number' := h 0 (Nat.zero_lt_succ _)
    have hrest : ∀ i < rest.length, σ (number + 1 + i) = number' + 1 + i := by
      intro i hi
      rw [Nat.add_assoc, Nat.add_assoc, Nat.add_comm 1 i]
      exact h (i + 1) (Nat.succ_lt_succ hi)
    rw [Progress.readAll, Progress.readAll, ← hfirst, p.read_mapLines σ, hfirst]
    exact ih hrest _

theorem Progress.readAll_append (p : Progress) (number : Nat) (above below : List (List Char)) :
    p.readAll number (above ++ below) = (p.readAll number above).readAll (number + above.length) below := by
  induction above generalizing p number with
  | nil => rfl
  | cons line above ih =>
    rw [List.cons_append, Progress.readAll, Progress.readAll, ih, List.length_cons, Nat.add_assoc, Nat.add_comm 1]

/-- Whether a line of a header says nothing: it is blank, or a comment. -/
def IsFiller (line : List Char) : Prop :=
  Text.trim line = [] ∨ (Text.trim line).head? = some '#'

theorem IsFiller.ofText_eq {line : List Char} (h : IsFiller line) : Line.ofText line = .filler := by
  unfold Line.ofText
  rcases h with h | h
  · rw [h]
  · obtain ⟨rest, hrest⟩ := List.head?_eq_some_iff.1 h
    rw [hrest]
    rfl

theorem IsFiller.isDelimiter_eq {line : List Char} (h : IsFiller line) : Document.isDelimiter line = false := by
  unfold Document.isDelimiter
  rcases h with h | h
  · rw [h]
    rfl
  · obtain ⟨rest, hrest⟩ := List.head?_eq_some_iff.1 h
    rw [hrest]
    rfl

/-- A line that says nothing changes no more than the numbers of the lines below it. -/
theorem Progress.readAll_filler {filler : List Char} (h : IsFiller filler) {above below : List (List Char)} {number : Nat}
    (hσ : ∀ n, σ n = if n < number + above.length then n else n + 1) :
    Progress.start.readAll number (above ++ filler :: below) =
      (Progress.start.readAll number (above ++ below)).mapLines σ := by
  -- The numbers above the line stay, so the progress at the line is its own image.
  have habove : (Progress.start.readAll number above).mapLines σ = Progress.start.readAll number above := by
    have hsame : ∀ i < above.length, σ (number + i) = number + i := by
      intro i hi
      rw [hσ, if_pos (Nat.add_lt_add_left hi number)]
    exact (Progress.start.readAll_mapLines σ hsame).symm
  have hbelow : ∀ i < below.length, σ (number + above.length + i) = number + above.length + 1 + i := by
    intro i _
    rw [hσ, if_neg (by omega)]
    omega
  rw [Progress.readAll_append, Progress.readAll, h.ofText_eq, Progress.read, Progress.readAll_append,
    ← Progress.readAll_mapLines σ hbelow, habove]

end Header

/-! ## The checks -/

namespace Check

variable {σ : Nat → Nat} {c c' : Context} (hfields : c'.fields = c.fields) (hbody : c'.body = c.body)
  (hconfig : c'.config = c.config) (hpresent : c'.present = c.present) (hstart : ∀ i, σ (c.bodyStart + i) = c'.bodyStart + i)

include hbody hstart in
/-- The finding about a backslash has the other line number. -/
theorem pathSeparatorFindings_mapLines : pathSeparatorFindings c' = (pathSeparatorFindings c).map (Finding.mapLine σ) := by
  rw [pathSeparatorFindings, pathSeparatorFindings, hbody]
  split
  · rw [List.map_singleton, Finding.mapLine_onLine, Context.documentLine, Context.documentLine, hstart]
  · rfl

include hbody hstart in
/-- The findings about wording have the other line numbers. -/
theorem timeSensitiveFindings_mapLines : timeSensitiveFindings c' = (timeSensitiveFindings c).map (Finding.mapLine σ) := by
  rw [timeSensitiveFindings, timeSensitiveFindings, List.map_filterMap]
  refine congrArg (List.filterMap · _) (funext fun lead => ?_)
  rw [anchorFinding?, anchorFinding?, Option.map_map, hbody]
  refine congrArg (Option.map · _) (funext fun anchor => ?_)
  rw [Function.comp_apply, Finding.mapLine_onLine, Context.documentLine, Context.documentLine, hstart]

include hbody hpresent hstart in
/-- The findings about references have the other line numbers. -/
theorem referenceFindings_mapLines : referenceFindings c' = (referenceFindings c).map (Finding.mapLine σ) := by
  rw [referenceFindings, referenceFindings, List.map_flatMap, hbody]
  refine congrArg (List.flatMap · _) (funext fun r => ?_)
  rcases not_names_or_names r with hnames | ⟨hx, hf⟩
  · rw [checkReference_of_not_names hnames, checkReference_of_not_names hnames]
    rfl
  · rw [checkReference_of_names hx hf, checkReference_of_names hx hf, List.map_append, Finding.map_mapLine_listIf,
      Finding.map_mapLine_listIf, hpresent, outsidePackage, outsidePackage, missingFile, missingFile,
      Finding.mapLine_onLine, Finding.mapLine_onLine, Context.documentLine, Context.documentLine, hstart]

include hfields hbody hconfig hpresent hstart

/-- A check finds the same when the body starts on another line, but for the numbers of the lines. -/
theorem run_mapLines (check : Check) : run c' check = (run c check).map (Finding.mapLine σ) := by
  have hfixed : run c' check = run c check → (∀ rule ∈ check.rules, rule.subject ≠ .line) →
      run c' check = (run c check).map (Finding.mapLine σ) := fun hrun hrules => by
    rw [hrun, Finding.map_mapLine_eq_self σ fun f hf => (allOf_run c check).location_ne_line hrules hf]
  cases check with
  | name => exact hfixed (by rw [run, run, nameFindings, nameFindings, hfields, hconfig]) (by decide)
  | description => exact hfixed (by rw [run, run, descriptionFindings, descriptionFindings, hfields, hconfig]) (by decide)
  | allowedTools => exact hfixed (by rw [run, run, toolsFindings, toolsFindings, hfields, hconfig]) (by decide)
  | bodySize => exact hfixed (by rw [run, run, bodySizeFindings, bodySizeFindings, hbody, hconfig]) (by decide)
  | pathSeparators => exact pathSeparatorFindings_mapLines hbody hstart
  | timeSensitive => exact timeSensitiveFindings_mapLines hbody hstart
  | references => exact referenceFindings_mapLines hbody hpresent hstart

end Check

/-! ## The report -/

/-- Reading two documents gives the same, but for the lines before the body and the numbers of the lines. -/
structure Extraction.Renumbered (σ : Nat → Nat) (e e' : Extraction) : Prop where
  fields : e'.fields = e.fields
  body : e'.body = e.body
  start : ∀ i, σ (e.bodyStart + i) = e'.bodyStart + i
  findings : e'.findings = e.findings.map (Finding.mapLine σ)

/-- The reports on two such documents are the same, but for the numbers of the lines. -/
theorem Extraction.Renumbered.report_eq {σ : Nat → Nat} {e e' : Extraction} (h : e.Renumbered σ e') (config : Config)
    (present : String → Bool) : e'.report config present = (e.report config present).mapLines σ := by
  have hrun : Check.run (e'.context config present) = fun check => (Check.run (e.context config present) check).map
      (Finding.mapLine σ) :=
    funext (Check.run_mapLines h.fields h.body rfl rfl h.start)
  have hall : e'.allFindings present config = (e.allFindings present config).map (Finding.mapLine σ) := by
    rw [allFindings, allFindings, List.map_append, List.map_flatMap, h.findings, hrun]
  have hkeeps : Report.keeps config.disable ∘ Finding.mapLine σ = Report.keeps config.disable :=
    funext (Finding.keeps_mapLine σ config.disable)
  rw [Extraction.report_eq, Extraction.report_eq, hall, Report.withoutDisabled, Report.withoutDisabled, Report.mapLines,
    List.filter_map, hkeeps]

theorem Header.map_mapLine_missingFields (σ : Nat → Nat) (fields : HeaderFields) :
    (missingFields fields).map (Finding.mapLine σ) = missingFields fields :=
  Finding.map_mapLine_eq_self σ fun _ hf => (allOf_missingFields fields).location_ne_line (by decide) hf

/-! ## Documents with more lines -/

namespace Document

variable {d : Document} {ls : List (List Char)}

/-- With lines before the header that are no delimiters, the same lines are cut out as header and body. -/
theorem ofLines?_append {front : List (List Char)} (hf : ∀ l ∈ front, isDelimiter l = false) (ls : List (List Char)) :
    ofLines? (front ++ ls) = (ofLines? ls).map fun d => { d with preamble := front ++ d.preamble } := by
  cases hd : ofLines? ls with
  | none =>
    rw [ofLines?_eq_none_iff] at hd
    rw [Option.map_none, ofLines?_eq_none_iff, List.countP_append, countP_isDelimiter_eq_zero hf]
    omega
  | some d =>
    obtain ⟨opening, closing, rfl, ho, hc, hn⟩ := ofLines?_eq_some_iff.1 hd
    refine ofLines?_eq_some_iff.2 ⟨opening, closing, (List.append_assoc ..).symm, ho, hc, fun l hl => ?_⟩
    rw [List.append_assoc] at hl
    rcases List.mem_append.1 hl with hl | hl
    · exact hf l hl
    · exact hn l hl

/-- Lines with a delimiter are lines without one, a delimiter and more lines. -/
theorem exists_splitAtDelimiter {ls : List (List Char)} (h : 1 ≤ ls.countP isDelimiter) :
    ∃ front mark back, ls = front ++ mark :: back ∧ isDelimiter mark = true ∧ ∀ l ∈ front, isDelimiter l = false := by
  cases hs : splitAtDelimiter? ls with
  | none =>
    rw [splitAtDelimiter?_eq_none_iff] at hs
    omega
  | some parts =>
    obtain ⟨front, back⟩ := parts
    obtain ⟨mark, hls, hm, hf⟩ := splitAtDelimiter?_eq_some_iff.1 hs
    exact ⟨front, mark, back, hls, hm, hf⟩

/-- Lines with one delimiter, and more lines with one or more: the header is what stands between the first two of them, with or
without a line that is no delimiter where the others meet. -/
theorem exists_isCutOf_append {above below : List (List Char)} (ha : above.countP isDelimiter = 1)
    (hb : 1 ≤ below.countP isDelimiter) :
    ∃ preamble front back body, above.length = preamble.length + 1 + front.length ∧
      IsCutOf ⟨preamble, front ++ back, body⟩ (above ++ below) ∧
      ∀ line, isDelimiter line = false → IsCutOf ⟨preamble, front ++ line :: back, body⟩ (above ++ line :: below) := by
  obtain ⟨preamble, opening, front, rfl, ho, hp⟩ := exists_splitAtDelimiter (Nat.le_of_eq ha.symm)
  obtain ⟨back, closing, body, rfl, hc, hback⟩ := exists_splitAtDelimiter hb
  have hfront : ∀ l ∈ front, isDelimiter l = false := by
    rw [List.countP_append, List.countP_cons_of_pos ho, countP_isDelimiter_eq_zero hp] at ha
    have hzero : front.countP isDelimiter = 0 := by omega
    intro l hl
    exact Bool.eq_false_iff.2 (List.countP_eq_zero.1 hzero l hl)
  refine ⟨preamble, front, back, body, ?_, ⟨opening, closing, by simp, ho, hc, fun l hl => ?_⟩, fun line hline =>
    ⟨opening, closing, by simp, ho, hc, fun l hl => ?_⟩⟩
  · rw [List.length_append, List.length_cons]
    omega
  · simp only [List.mem_append] at hl
    rcases hl with hl | hl | hl
    · exact hp l hl
    · exact hfront l hl
    · exact hback l hl
  · simp only [List.mem_append, List.mem_cons] at hl
    rcases hl with hl | hl | rfl | hl
    · exact hp l hl
    · exact hfront l hl
    · exact hline
    · exact hback l hl

/-- With more lines before the header, the lines of a document have higher numbers. -/
theorem renumbered_preamble (d : Document) (front : List (List Char)) :
    (Extraction.ofDocument d).Renumbered (· + front.length)
      (Extraction.ofDocument { d with preamble := front ++ d.preamble }) := by
  have hread : Header.Progress.start.readAll (headerStart { d with preamble := front ++ d.preamble }) d.header =
      (Header.Progress.start.readAll d.headerStart d.header).mapLines (· + front.length) := by
    refine Header.Progress.readAll_mapLines (· + front.length) (fun i _ => ?_) Header.Progress.start
    simp only [headerStart, List.length_append]
    omega
  refine ⟨?_, rfl, fun i => ?_, ?_⟩
  · simp only [Extraction.ofDocument, hread]
    rfl
  · simp only [Extraction.ofDocument, bodyStart, List.length_append]
    omega
  · simp only [Extraction.ofDocument, hread, List.map_append, Header.map_mapLine_missingFields]
    rfl

/-- With a line in the header that says nothing, the lines below it have higher numbers. -/
theorem renumbered_filler {filler : List Char} (h : Header.IsFiller filler) (preamble front back body : List (List Char)) :
    (Extraction.ofDocument ⟨preamble, front ++ back, body⟩).Renumbered
      (fun n => if n ≤ preamble.length + 1 + front.length then n else n + 1)
      (Extraction.ofDocument ⟨preamble, front ++ filler :: back, body⟩) := by
  let σ : Nat → Nat := fun n => if n ≤ preamble.length + 1 + front.length then n else n + 1
  have hread : Header.Progress.start.readAll (preamble.length + 2) (front ++ filler :: back) =
      (Header.Progress.start.readAll (preamble.length + 2) (front ++ back)).mapLines σ := by
    refine Header.Progress.readAll_filler σ h fun n => ?_
    have hiff : n ≤ preamble.length + 1 + front.length ↔ n < preamble.length + 2 + front.length := by omega
    simp only [σ, hiff]
  refine ⟨?_, rfl, fun i => ?_, ?_⟩
  · simp only [Extraction.ofDocument, headerStart, hread]
    rfl
  · simp only [Extraction.ofDocument, bodyStart, List.length_append, List.length_cons]
    rw [if_neg (by omega)]
    omega
  · simp only [Extraction.ofDocument, headerStart, hread, List.map_append, Header.map_mapLine_missingFields]
    rfl

end Document

/-! ## Texts with more lines -/

namespace Text

/-- Whether a text is made of whole lines: each has a line feed at its end. -/
def IsWhole (s : List Char) : Prop :=
  s = [] ∨ s.getLast? = some '\n'

theorem IsWhole.lines_append {s : List Char} (h : IsWhole s) (more : List Char) :
    lines (s ++ more) = lines s ++ lines more := by
  rcases h with rfl | h
  · rfl
  · obtain ⟨init, rfl⟩ := List.getLast?_eq_some_iff.1 h
    rw [List.append_assoc]
    exact lines_append_newline_append init more

end Text

theorem Header.IsFiller.of_return {line : List Char} (h : IsFiller (line ++ ['\r'])) : IsFiller line := by
  unfold IsFiller at h ⊢
  rw [Text.trim_append_blanks line (List.forall_mem_singleton.2 rfl)] at h
  exact h

namespace Package

variable (t : FileTree) (root : Path) (config : Config)

/-- Whole lines without a delimiter that are put before a document are added to the numbers of the lines. -/
theorem validate_append_front {front : String} (hwhole : Text.IsWhole front.toList)
    (hfront : ∀ l ∈ Text.lines front.toList, Document.isDelimiter l = false) (content : String) :
    validate t ⟨root, front ++ content⟩ config =
      (validate t ⟨root, content⟩ config).map (Report.mapLines (· + (Text.lines front.toList).length)) := by
  have hlines : Document.ofText? (front ++ content) =
      (Document.ofText? content).map fun d => { d with preamble := Text.lines front.toList ++ d.preamble } := by
    rw [Document.ofText?, String.toList_append, hwhole.lines_append, Document.ofLines?_append hfront, Document.ofText?]
  simp only [validate, validateText, Extraction.ofText?, hlines]
  cases Document.ofText? content with
  | none => rfl
  | some d =>
    have hreport := (d.renumbered_preamble (Text.lines front.toList)).report_eq config
    simp only [Option.map_some, hreport]
    rfl

/-- A line that says nothing, put behind whole lines, is one line of the text, which says nothing either. -/
theorem lines_append_filler {above filler : String} (hwhole : Text.IsWhole above.toList) (hn : '\n' ∉ filler.toList)
    (hfiller : Header.IsFiller filler.toList) (below : String) : ∃ line, Header.IsFiller line ∧
      Text.lines (above ++ filler ++ "\n" ++ below).toList = Text.lines above.toList ++ line :: Text.lines below.toList := by
  obtain ⟨line, hline, hcases⟩ := Text.exists_lines_append_newline hn below.toList
  have htext : (above ++ filler ++ "\n" ++ below).toList = above.toList ++ (filler.toList ++ '\n' :: below.toList) := by
    simp
  refine ⟨line, ?_, by rw [htext, hwhole.lines_append, hline]⟩
  rcases hcases with h | h
  · exact h ▸ hfiller
  · rw [h] at hfiller
    exact hfiller.of_return

/-- Lines that say nothing change no more than the numbers of the lines behind them. When whole lines without a delimiter are put
before a document, the outcome is the same with that many added to the number of each line. When a blank line or a comment is put
between the two delimiters, behind the whole lines of `above`, the fields and the report are the same with one added to the
numbers of the lines from there on. -/
theorem validate_renumbered (t : FileTree) (root : Path) (config : Config) :
    (∀ front content : String, Text.IsWhole front.toList →
      (∀ l ∈ Text.lines front.toList, Document.isDelimiter l = false) →
        validate t ⟨root, front ++ content⟩ config =
          (validate t ⟨root, content⟩ config).map (Report.mapLines (· + (Text.lines front.toList).length))) ∧
    ∀ above filler below : String, Text.IsWhole above.toList →
      (Text.lines above.toList).countP Document.isDelimiter = 1 →
      1 ≤ (Text.lines below.toList).countP Document.isDelimiter →
      '\n' ∉ filler.toList → Header.IsFiller filler.toList →
        ∃ e e' report, Extraction.ofText? (above ++ below) = some e ∧
          Extraction.ofText? (above ++ filler ++ "\n" ++ below) = some e' ∧ e'.fields = e.fields ∧
          validate t ⟨root, above ++ below⟩ config = .ok report ∧
          validate t ⟨root, above ++ filler ++ "\n" ++ below⟩ config =
            .ok (report.mapLines fun n => if n ≤ (Text.lines above.toList).length then n else n + 1) := by
  refine ⟨fun front content hwhole hfront => validate_append_front t root config hwhole hfront content,
    fun above filler below hwhole habove hbelow hn hfiller => ?_⟩
  obtain ⟨line, hline, hlines'⟩ := lines_append_filler hwhole hn hfiller below
  have hlines : Text.lines (above ++ below).toList = Text.lines above.toList ++ Text.lines below.toList := by
    rw [String.toList_append, hwhole.lines_append]
  obtain ⟨preamble, front, back, body, hlength, hcut, hcutLine⟩ := Document.exists_isCutOf_append habove hbelow
  have hcut' := hcutLine line hline.isDelimiter_eq
  rw [← hlines] at hcut
  rw [← hlines'] at hcut'
  have hrenumbered := Document.renumbered_filler hline preamble front back body
  rw [← hlength] at hrenumbered
  refine ⟨_, _, _, Extraction.ofText?_of_isCutOf hcut, Extraction.ofText?_of_isCutOf hcut', hrenumbered.fields,
    validateText_of_isCutOf hcut config _, ?_⟩
  rw [validate, validateText_of_isCutOf hcut', hrenumbered.report_eq]
  rfl

/-- Two lines before a document, and a comment in the middle of its tool list, with a carriage return at the end: the item below
the comment still names a tool, and what is wrong below it is found one line further down. -/
theorem validate_renumbered_tools :
    let t : FileTree := ⟨[], []⟩
    let front := "intro\r\n\n"
    let above := "---\nallowed-tools:\n- Read\n"
    let filler := "  # more\r"
    let below := "- Bsh\nfoo\n---\nbefore 2020"
    validate t ⟨⟨"a"⟩, front ++ (above ++ below)⟩ {} =
        (validate t ⟨⟨"a"⟩, above ++ below⟩ {}).map (Report.mapLines (· + 2)) ∧
      ∃ e report, Extraction.ofText? (above ++ filler ++ "\n" ++ below) = some e ∧
        e.fields.allowedTools = some ["Read", "Bsh"] ∧ validate t ⟨⟨"a"⟩, above ++ below⟩ {} = .ok report ∧
        report.findings.map (fun f => (f.rule, f.location)) =
          [("header/malformed-line", some (.line 5)), ("header/missing-name", some (.field "name")),
            ("header/missing-description", some (.field "description")), ("tools/unknown", some (.field "allowed-tools")),
            ("body/time-sensitive", some (.line 7))] ∧
        validate t ⟨⟨"a"⟩, above ++ filler ++ "\n" ++ below⟩ {} =
          .ok (report.mapLines fun n => if n ≤ 3 then n else n + 1) := by
  intro t front above filler below
  obtain ⟨hfront, hfiller⟩ := validate_renumbered t ⟨"a"⟩ {}
  have hmoved := hfront front (above ++ below) (.inr (by decide +kernel)) (by decide +kernel)
  obtain ⟨e, e', report, he, he', hfields, hreport, hreport'⟩ := hfiller above filler below (.inr (by decide +kernel))
    (by decide +kernel) (by decide +kernel) (by decide +kernel) (.inr (by decide +kernel))
  have htools : (Extraction.ofText? (above ++ below)).map (fun e => e.fields.allowedTools) = some (some ["Read", "Bsh"]) := by
    decide +kernel
  have hfound : (validate t ⟨⟨"a"⟩, above ++ below⟩ {}).toOption.map (fun r =>
      r.findings.map fun f => (f.rule, f.location)) =
      some [("header/malformed-line", some (.line 5)), ("header/missing-name", some (.field "name")),
        ("header/missing-description", some (.field "description")), ("tools/unknown", some (.field "allowed-tools")),
        ("body/time-sensitive", some (.line 7))] := by decide +kernel
  have hlength : (Text.lines front.toList).length = 2 := by decide +kernel
  have hlength' : (Text.lines above.toList).length = 3 := by decide +kernel
  rw [hlength] at hmoved
  rw [hlength'] at hreport'
  rw [he] at htools
  rw [hreport] at hfound
  exact ⟨hmoved, e', report, he', hfields ▸ Option.some.inj htools, hreport, Option.some.inj hfound, hreport'⟩

end Package

end SkillLint
