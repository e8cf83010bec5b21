import SkillLint.Proofs.Check.SeparatorWord
import SkillLint.Proofs.Markdown.References
import SkillLint.Proofs.Package
import SkillLint.Proofs.Rule
import SkillLint.Proofs.Text.Position
import SkillLint.Proofs.Wording.TimeAnchor

/-!
# Lines at fault

A finding about a line has a number, and the line of the document with that number is the one at fault. The header is gone
through line by line; the checks of the body look at the joined body lines, of which one splits them again and the others count
the line feeds before a place. All of them arrive at the lines of the document.
-/

namespace SkillLint

/-! ## Header lines -/

namespace Header

/-- What a finding says of a line of the header, given the lines above it. -/
inductive Fault (above : List (List Char)) (number : Nat) (line : List Char) : Finding → Prop
  /-- The line has no colon. -/
  | malformed (hc : ':' ∉ line) : Fault above number line (malformedLine number (String.ofList (Text.trim line)))
  /-- The key of the line is that of a line above. -/
  | duplicate {key : String} (hk : keyOf? line = some key) (hs : key ∈ keysOf above) :
    Fault above number line (duplicateKey number key)
  /-- The key of the line is not known. -/
  | unknown {key : String} (hk : keyOf? line = some key) (hs : key ∉ knownKeys) :
    Fault above number line (unknownKey number key)

/-- What is found about the lines of a header is a fault of one of them. -/
theorem exists_fault_of_mem_lineFindings {number : Nat} {header : List (List Char)} {f : Finding}
    (h : f ∈ lineFindings number header) :
    ∃ above line below, header = above ++ line :: below ∧ Fault above (number + above.length) line f := by
  obtain ⟨above, line, below, hat, he⟩ := exists_line_of_mem_lineFindings h
  refine ⟨above, line, below, hat, ?_⟩
  rcases cases_of_lineFinding? he with ⟨hk, rfl⟩ | ⟨key, hk, ⟨hs, rfl⟩ | ⟨hs, rfl⟩⟩
  · exact .malformed fun hc => absurd hk (by simp [keyOf?, hc])
  · exact .duplicate hk hs
  · exact .unknown hk hs

theorem Fault.location {above : List (List Char)} {number : Nat} {line : List Char} {f : Finding}
    (h : Fault above number line f) : f.location = some (.line number) := by
  cases h <;> rfl

end Header

/-! ## Links in the lines of the body -/

namespace Markdown

/-- A reference begins on a line, given the lines above and below it: it is that of the first link with its target, the target
starts on the line as it is written, and lies on it unless it is written with a line feed. -/
def Reference.BeginsOn (r : Reference) (above : List (List Char)) (line : List Char) (below : List (List Char)) : Prop :=
  ∃ earlier o later, Text.occurrences readLink (Text.joinLines (above ++ line :: below)) = earlier ++ o :: later ∧
    (∀ e ∈ earlier, String.ofList (bareTarget e.found.target) ≠ r.target) ∧
    r.target = String.ofList (bareTarget o.found.target) ∧ Text.StartsOn o.found.target line below ∧
    ('\n' ∉ o.found.target → r.target.toList <:+: line)

/-- What a target leads to is a part of it. -/
theorem bareTarget_isInfix (target : List Char) : bareTarget target <:+: target := by
  have hopen : target.dropWhile (· == '<') <:+ target := List.dropWhile_suffix _
  have hclose : Text.dropTrailing (· == '>') (target.dropWhile (· == '<')) <+: target.dropWhile (· == '<') := by
    have hreverse := (List.dropWhile_suffix (· == '>') (l := (target.dropWhile (· == '<')).reverse))
    rw [← List.reverse_prefix, List.reverse_reverse] at hreverse
    exact hreverse
  obtain ⟨pre, post, htrim, -⟩ :=
    Text.exists_blanks_around_trim (Text.dropTrailing (· == '>') (target.dropWhile (· == '<')))
  have hmiddle : bareTarget target <:+: Text.dropTrailing (· == '>') (target.dropWhile (· == '<')) :=
    ⟨pre, post, by rw [List.append_assoc]; exact htrim.symm⟩
  exact hmiddle.trans (hclose.isInfix.trans hopen.isInfix)

/-- Every reference of joined lines begins on the line that it gives, counted from zero. -/
theorem exists_line_of_mem_references {ls : List (List Char)} (hls : ∀ l ∈ ls, '\n' ∉ l) {r : Reference}
    (h : r ∈ references (String.ofList (Text.joinLines ls))) :
    ∃ above line below, ls = above ++ line :: below ∧ r.line = above.length ∧ r.BeginsOn above line below := by
  obtain ⟨-, earlier, o, later, hocc, ho, hfirst⟩ := mem_references_iff.1 h
  rw [String.toList_ofList] at hocc ho hfirst
  have hmem : o ∈ Text.occurrences readLink (Text.joinLines ls) := hocc ▸ List.mem_append_right _ List.mem_cons_self
  obtain ⟨before, l, hfound, hfrom⟩ := comesFrom_referenceOf hmem
  rw [ho] at hfrom
  obtain ⟨⟨after, hbody⟩, htarget, hline⟩ := hfrom
  obtain ⟨c, more, hstart, hc⟩ := l.target_ok.exists_cons
  have hne : l.target ≠ [] := hstart ▸ List.cons_ne_nil c more
  have hhead : l.target.head? ≠ some '\n' := by
    rw [hstart]
    intro e
    rw [Option.some.inj e] at hc
    exact absurd hc (by decide)
  have hplace : Text.joinLines ls = (before ++ l.opening) ++ (l.target ++ (l.tail.toText ++ after)) := by
    rw [hbody, WrittenLink.toText]
    simp only [List.append_assoc]
  obtain ⟨above, line, below, rfl, hcount, hon⟩ := Text.exists_startsOn_of_joinLines_eq hls hne hhead hplace
  refine ⟨above, line, below, rfl, by rw [hline, hcount], earlier, o, later, hocc, fun e he => ?_, ?_, ?_, fun hn => ?_⟩
  · exact hfirst e he
  · rw [htarget, hfound]
  · rw [hfound]
    exact hon
  · rw [hfound] at hn
    rw [htarget, String.toList_ofList]
    exact (bareTarget_isInfix l.target).trans (hon.isInfix hn)

end Markdown

/-! ## Body lines -/

namespace Check

/-- What a finding says of a line of the body, given the lines above and below it. -/
inductive Fault (above : List (List Char)) (number : Nat) (line : List Char) (below : List (List Char)) : Finding → Prop
  /-- The line is the first one with a backslash that separates path segments, and the word is a part of it. -/
  | separator {word : String} (hl : HasSeparator line) (hw : word.toList <:+: line) (ha : ∀ l ∈ above, ¬HasSeparator l) :
    Fault above number line below
      (Rule.bodyBackslashPath.onLine number ("Backslash path separator in '" ++ word ++ "'; use forward slashes"))
  /-- The phrase starts on the line. -/
  | wording {phrase : List Char} (hp : Text.StartsOn phrase line below) :
    Fault above number line below
      (Rule.bodyTimeSensitive.onLine number ("Time-sensitive wording '" ++ String.ofList phrase
        ++ "' will go stale; describe the current behavior instead"))
  /-- The reference begins on the line. -/
  | outside {r : Markdown.Reference} (hr : r.BeginsOn above line below) :
    Fault above number line below
      (Rule.referencesOutsidePackage.onLine number
        ("Reference '" ++ r.target ++ "' points outside the package; bundle the file instead"))
  /-- The reference begins on the line. -/
  | missing {r : Markdown.Reference} (hr : r.BeginsOn above line below) :
    Fault above number line below
      (Rule.referencesMissing.onLine number ("Referenced file not found: " ++ filePart r.target))

theorem Fault.location {above : List (List Char)} {number : Nat} {line : List Char} {below : List (List Char)} {f : Finding}
    (h : Fault above number line below f) : f.location = some (.line number) := by
  cases h <;> rfl

section

variable {c : Context} {ls : List (List Char)} (hbody : c.body = String.ofList (Text.joinLines ls))
  (hls : ∀ l ∈ ls, '\n' ∉ l) {f : Finding}

include hbody hls

/-- What is found about path separators is a fault of a body line. -/
theorem exists_fault_of_mem_pathSeparatorFindings (hf : f ∈ pathSeparatorFindings c) :
    ∃ above line below, ls = above ++ line :: below ∧ Fault above (c.documentLine above.length) line below f := by
  rw [pathSeparatorFindings, findBackslashPath, hbody, String.toList_ofList, firstSeparator?_lines_joinLines hls] at hf
  split at hf
  · rename_i line word hfirst
    obtain ⟨above, l, below, hat, rfl, habove, hword⟩ := firstSeparator?_eq_some_iff.1 hfirst
    obtain rfl := List.mem_singleton.1 hf
    rw [Nat.zero_add]
    exact ⟨above, l, below, hat, .separator hword.hasSeparator hword.isInfix fun l' hl' => hasNoPath_iff.1 (habove l' hl')⟩
  · exact absurd hf List.not_mem_nil

/-- What is found about wording is a fault of the body line on which the wording starts. -/
theorem exists_fault_of_mem_timeSensitiveFindings (hf : f ∈ timeSensitiveFindings c) :
    ∃ above line below, ls = above ++ line :: below ∧ Fault above (c.documentLine above.length) line below f := by
  obtain ⟨lead, -, hlead⟩ := List.mem_filterMap.1 hf
  obtain ⟨⟨start, phrase⟩, hanchor, rfl⟩ := Option.map_eq_some_iff.1 hlead
  rw [hbody, String.toList_ofList] at hanchor ⊢
  obtain ⟨front, rest, previous, size, hplace, hstart, hread⟩ :=
    Text.exists_of_mem_occurrences (List.mem_of_mem_head? hanchor)
  obtain ⟨hne, hhead, more, hmore⟩ := Wording.exists_of_readAnchor hread
  rw [← hmore] at hplace
  obtain ⟨above, line, below, hat, hcount, hon⟩ := Text.exists_startsOn_of_joinLines_eq hls hne hhead hplace
  refine ⟨above, line, below, hat, ?_⟩
  rw [hstart, hplace, Text.lineAt_append, ← hcount]
  exact .wording hon

/-- What is found about a reference is a fault of the body line on which the reference begins. -/
theorem exists_fault_of_mem_referenceFindings (hf : f ∈ referenceFindings c) :
    ∃ above line below, ls = above ++ line :: below ∧ Fault above (c.documentLine above.length) line below f := by
  obtain ⟨r, hr, hf⟩ := List.mem_flatMap.1 hf
  rw [hbody] at hr
  obtain ⟨above, line, below, hat, hline, hbegins⟩ := Markdown.exists_line_of_mem_references hls hr
  refine ⟨above, line, below, hat, ?_⟩
  rw [mem_checkReference_iff, hline] at hf
  obtain ⟨-, -, ⟨-, rfl⟩ | ⟨-, rfl⟩⟩ := hf
  · exact .outside hbegins
  · exact .missing hbegins

/-- What a check finds about a line is a fault of a body line. -/
theorem exists_fault_of_mem_run {check : Check} (hf : f ∈ run c check) {number : Nat}
    (hn : f.location = some (.line number)) :
    ∃ above line below, ls = above ++ line :: below ∧ Fault above (c.documentLine above.length) line below f := by
  have hall := allOf_run c check
  cases check with
  | name => exact absurd hn (hall.location_ne_line (by decide) hf number)
  | description => exact absurd hn (hall.location_ne_line (by decide) hf number)
  | allowedTools => exact absurd hn (hall.location_ne_line (by decide) hf number)
  | bodySize => exact absurd hn (hall.location_ne_line (by decide) hf number)
  | pathSeparators => exact exists_fault_of_mem_pathSeparatorFindings hbody hls hf
  | timeSensitive => exact exists_fault_of_mem_timeSensitiveFindings hbody hls hf
  | references => exact exists_fault_of_mem_referenceFindings hbody hls hf

end

end Check

/-! ## Lines of the document -/

/-- What is found about a line of a document is a fault of the line with that number: a header line, which lies between the two
delimiters, or a body line, which lies behind the second one. -/
theorem Document.IsCutOf.exists_fault {d : Document} {ls : List (List Char)} (hcut : d.IsCutOf ls)
    (hls : ∀ l ∈ ls, '\n' ∉ l) {config : Config} {present : String → Bool} {f : Finding}
    (hf : f ∈ (Extraction.ofDocument d).allFindings present config) {number : Nat} (hn : f.location = some (.line number)) :
    1 ≤ number ∧ ∃ line, ls[number - 1]? = some line ∧
      ((d.openingLine < number ∧ number < d.closingLine ∧
          ∃ above below, d.header = above ++ line :: below ∧ Header.Fault above number line f) ∨
        (d.closingLine < number ∧
          ∃ above below, d.body = above ++ line :: below ∧ Check.Fault above number line below f)) := by
  rcases List.mem_append.1 hf with hf | hf
  · rw [Extraction.ofDocument_eq_meaning] at hf
    rcases List.mem_append.1 hf with hf | hf
    · obtain ⟨above, line, below, hat, hfault⟩ := Header.exists_fault_of_mem_lineFindings hf
      obtain rfl : d.headerStart + above.length = number := by
        have hlocation := hfault.location.symm.trans hn
        simpa using hlocation
      have hlength : above.length < d.header.length := by
        rw [hat, List.length_append, List.length_cons]
        omega
      refine ⟨?_, line, hcut.getElem?_header hat, .inl ⟨?_, ?_, above, below, hat, hfault⟩⟩
      · rw [Document.headerStart]
        omega
      · rw [Document.openingLine, Document.headerStart]
        omega
      · rw [Document.closingLine, Document.headerStart]
        omega
    · exact absurd hn ((Header.allOf_missingFields _).location_ne_line (by decide) hf number)
  · obtain ⟨check, -, hf⟩ := List.mem_flatMap.1 hf
    have hbody : ∀ l ∈ d.body, '\n' ∉ l := fun l hl => hls l (hcut.mem_of_mem_body hl)
    obtain ⟨above, line, below, hat, hfault⟩ := Check.exists_fault_of_mem_run rfl hbody hf hn
    obtain rfl : d.bodyStart + above.length = number := by
      have hlocation := hfault.location.symm.trans hn
      simpa [Context.documentLine, Extraction.context, Extraction.ofDocument] using hlocation
    refine ⟨?_, line, hcut.getElem?_body hat, .inr ⟨?_, above, below, hat, hfault⟩⟩
    · rw [Document.bodyStart]
      omega
    · rw [Document.closingLine, Document.bodyStart]
      omega

/-- Validating a package whose document has two delimiter lines gives a report in which every finding about a line has the
number of a line of the document, and that line is at fault: a header line, between the two delimiters, or a body line, behind
the second one. -/
theorem Package.validate_lines (t : FileTree) (p : Package) (config : Config)
    (h : 2 ≤ (Text.lines p.content.toList).countP Document.isDelimiter) :
    ∃ (d : Document) (report : Report), d.IsCutOf (Text.lines p.content.toList) ∧ p.validate t config = .ok report ∧
      ∀ f ∈ report.findings, ∀ number, f.location = some (.line number) →
        1 ≤ number ∧ number ≤ (Text.lines p.content.toList).length ∧
          ∃ line, (Text.lines p.content.toList)[number - 1]? = some line ∧
            ((d.openingLine < number ∧ number < d.closingLine ∧
                ∃ above below, d.header = above ++ line :: below ∧ Header.Fault above number line f) ∨
              (d.closingLine < number ∧
                ∃ above below, d.body = above ++ line :: below ∧ Check.Fault above number line below f)) := by
  obtain ⟨d, hcut, hreport⟩ := p.exists_validate_eq t h
  refine ⟨d, _, hcut, hreport config, fun f hf number hn => ?_⟩
  have hfound := Extraction.mem_allFindings_of_mem_report _ _ hf
  obtain ⟨hpos, line, hline, hfault⟩ :=
    hcut.exists_fault (fun l hl => Text.newline_not_mem_of_mem_lines hl) hfound hn
  obtain ⟨hlt, -⟩ := List.getElem?_eq_some_iff.1 hline
  exact ⟨hpos, by omega, line, hline, hfault⟩

/-- A document with text before its header, a line without a colon, a repeated key, carriage returns, and a time anchor and a
link that go over line ends: its findings about lines have the numbers of lines of the document. -/
theorem Package.validate_lines_mixed :
    let t : FileTree := ⟨[], []⟩
    let p : Package := ⟨⟨"a"⟩, "intro\n---\nname: a\njunk\nname: b\n---\r\nSee docs\\x and\r\n[b\n](c) before\n2024\n"⟩
    ∃ report, p.validate t {} = .ok report ∧
      report.findings.filterMap (fun f => f.location.map fun location => (f.rule, location)) =
        [("header/malformed-line", .line 4), ("header/duplicate-key", .line 5),
          ("header/missing-description", .field "description"), ("body/backslash-path", .line 7),
          ("body/time-sensitive", .line 9), ("references/missing", .line 9)] ∧
      ∀ f ∈ report.findings, ∀ number, f.location = some (.line number) → 1 ≤ number ∧ number ≤ 10 := by
  intro t p
  obtain ⟨d, report, -, hreport, hlines⟩ := validate_lines t p {} (by decide +kernel)
  have hfound : (p.validate t {}).toOption.map (fun r => r.findings.filterMap fun f =>
      f.location.map fun location => (f.rule, location)) =
        some [("header/malformed-line", .line 4), ("header/duplicate-key", .line 5),
          ("header/missing-description", .field "description"), ("body/backslash-path", .line 7),
          ("body/time-sensitive", .line 9), ("references/missing", .line 9)] := by
    decide +kernel
  rw [hreport] at hfound
  have hlength : (Text.lines p.content.toList).length = 10 := by decide +kernel
  refine ⟨report, hreport, Option.some.inj hfound, fun f hf number hn => ?_⟩
  obtain ⟨hpos, hle, -⟩ := hlines f hf number hn
  exact ⟨hpos, hlength ▸ hle⟩

end SkillLint
