import SkillLint.Package
import SkillLint.Proofs.Check.References
import SkillLint.Proofs.Header.Reading

/-!
# The rules that findings are of

Every finding is of a published rule: it has the rule's code and severity, and its location is of the kind that the rule is
about. Each check raises findings of its own rules only, and so do the two passes over a header.
-/

namespace SkillLint

/-- All rules, in the order in which a report can show them. -/
def Rule.all : List Rule :=
  [.headerMalformedLine, .headerDuplicateKey, .headerUnknownKey, .headerMissingName, .headerMissingDescription, .nameEmpty,
    .nameInvalidChars, .nameTooLong, .nameReservedWord, .nameAngleBrackets, .nameHyphenation, .nameGeneric, .descriptionEmpty,
    .descriptionTooLong, .descriptionAngleBrackets, .descriptionPerson, .descriptionNoTrigger, .toolsEmpty, .toolsUnknown,
    .bodyTooLong, .bodyBackslashPath, .bodyTimeSensitive, .referencesOutsidePackage, .referencesMissing]

theorem Rule.mem_all (rule : Rule) : rule ∈ all := by
  cases rule <;> decide

theorem Rule.code_injective : Function.Injective code := by
  intro rule rule' h
  have hall : ∀ rule ∈ all, ∀ rule' ∈ all, rule.code = rule'.code → rule = rule' := by decide
  exact hall rule (mem_all rule) rule' (mem_all rule') h

/-- What the findings of a rule are about. -/
inductive Rule.Subject where
  /-- A header field, by its key. -/
  | field (key : String)
  /-- A line of the document. -/
  | line
  /-- The document as a whole. -/
  | document
deriving DecidableEq, Repr

/-- What the findings of each rule are about. -/
def Rule.subject : Rule → Subject
  | headerMissingName => .field "name"
  | headerMissingDescription => .field "description"
  | nameEmpty | nameInvalidChars | nameTooLong | nameReservedWord | nameAngleBrackets | nameHyphenation | nameGeneric =>
    .field "name"
  | descriptionEmpty | descriptionTooLong | descriptionAngleBrackets | descriptionPerson | descriptionNoTrigger =>
    .field "description"
  | toolsEmpty | toolsUnknown => .field "allowed-tools"
  | bodyTooLong => .document
  | headerMalformedLine | headerDuplicateKey | headerUnknownKey => .line
  | bodyBackslashPath | bodyTimeSensitive | referencesOutsidePackage | referencesMissing => .line

/-- Whether a finding about the subject can have the location. -/
def Rule.Subject.Fits : Subject → Option Location → Prop
  | .field key, location => location = some (.field key)
  | .line, location => ∃ number, location = some (.line number)
  | .document, location => location = none

namespace Finding

/-- A finding is of a rule when it has the code and the severity of the rule and is about what the rule is about. -/
structure IsOf (f : Finding) (rule : Rule) : Prop where
  code : f.rule = rule.code
  severity : f.severity = rule.severity
  subject : rule.subject.Fits f.location

/-- Whether all findings of a list are of the given rules. -/
def AllOf (rules : List Rule) (fs : List Finding) : Prop :=
  ∀ f ∈ fs, ∃ rule ∈ rules, f.IsOf rule

variable {rules : List Rule} {rule : Rule} {f : Finding} {fs gs : List Finding}

theorem isOf_onField {key : String} (h : rule.subject = .field key) (message : String) :
    (rule.onField key message).IsOf rule :=
  ⟨rfl, rfl, by rw [h]; rfl⟩

theorem isOf_onLine (h : rule.subject = .line) (number : Nat) (message : String) :
    (rule.onLine number message).IsOf rule :=
  ⟨rfl, rfl, by rw [h]; exact ⟨number, rfl⟩⟩

theorem isOf_finding (h : rule.subject = .document) (message : String) : (rule.finding message).IsOf rule :=
  ⟨rfl, rfl, by rw [h]; rfl⟩

theorem AllOf.nil : AllOf rules [] := by
  intro f hf
  exact absurd hf List.not_mem_nil

theorem AllOf.singleton (hr : rule ∈ rules) (h : f.IsOf rule) : AllOf rules [f] := by
  intro g hg
  rw [List.mem_singleton] at hg
  exact ⟨rule, hr, hg ▸ h⟩

theorem AllOf.listIf {condition : Bool} (hr : rule ∈ rules) (h : f.IsOf rule) : AllOf rules (listIf condition f) := by
  cases condition with
  | true => exact AllOf.singleton hr h
  | false => exact AllOf.nil

theorem AllOf.append (h : AllOf rules fs) (h' : AllOf rules gs) : AllOf rules (fs ++ gs) := by
  intro f hf
  rcases List.mem_append.1 hf with hf | hf
  · exact h f hf
  · exact h' f hf

theorem AllOf.mono {more : List Rule} (h : AllOf rules fs) (hr : ∀ rule ∈ rules, rule ∈ more) : AllOf more fs := by
  intro f hf
  obtain ⟨rule, hmem, hof⟩ := h f hf
  exact ⟨rule, hr rule hmem, hof⟩

theorem AllOf.isOf_of_code (h : AllOf rules fs) (hf : f ∈ fs) (hc : f.rule = rule.code) : rule ∈ rules ∧ f.IsOf rule := by
  obtain ⟨own, hown, hof⟩ := h f hf
  obtain rfl : own = rule := Rule.code_injective (hof.code.symm.trans hc)
  exact ⟨hown, hof⟩

/-- One finding of the same rule for each element of a list. -/
theorem AllOf.map {α : Type} {xs : List α} {g : α → Finding} (hr : rule ∈ rules) (h : ∀ x, (g x).IsOf rule) :
    AllOf rules (xs.map g) := by
  intro f hf
  obtain ⟨x, -, rfl⟩ := List.mem_map.1 hf
  exact ⟨rule, hr, h x⟩

theorem AllOf.errorFree (h : AllOf rules fs) (hw : ∀ rule ∈ rules, rule.severity = .warning) : ErrorFree fs := by
  intro f hf
  obtain ⟨rule, hr, hf⟩ := h f hf
  rw [not_isError_iff, hf.severity, hw rule hr]

/-- No finding is about a line when the rules are about something else. -/
theorem AllOf.location_ne_line (h : AllOf rules fs) (hs : ∀ rule ∈ rules, rule.subject ≠ .line) (hf : f ∈ fs)
    (number : Nat) : f.location ≠ some (.line number) := by
  obtain ⟨rule, hr, hof⟩ := h f hf
  have hfits := hof.subject
  have hne := hs rule hr
  intro hl
  rw [hl] at hfits
  cases hsubject : rule.subject with
  | field key =>
    rw [hsubject] at hfits
    exact absurd (Option.some.inj hfits) (by simp)
  | line => exact hne hsubject
  | document =>
    rw [hsubject] at hfits
    exact absurd hfits (by simp [Rule.Subject.Fits])

end Finding

/-! ## The rules of the header -/

namespace Header

open Finding (AllOf)

/-- The rules that the lines of a header can break. -/
def lineRules : List Rule :=
  [.headerMalformedLine, .headerDuplicateKey, .headerUnknownKey]

/-- The rules that are broken by a field that is missing. -/
def fieldRules : List Rule :=
  [.headerMissingName, .headerMissingDescription]

/-- What is found about the lines of a header. -/
theorem allOf_lineFindings (number : Nat) (header : List (List Char)) : AllOf lineRules (lineFindings number header) := by
  intro f hf
  obtain ⟨above, line, below, -, he⟩ := exists_line_of_mem_lineFindings hf
  rcases cases_of_lineFinding? he with ⟨-, rfl⟩ | ⟨key, -, ⟨-, rfl⟩ | ⟨-, rfl⟩⟩
  · exact ⟨.headerMalformedLine, by decide, Finding.isOf_onLine rfl _ _⟩
  · exact ⟨.headerDuplicateKey, by decide, Finding.isOf_onLine rfl _ _⟩
  · exact ⟨.headerUnknownKey, by decide, Finding.isOf_onLine rfl _ _⟩

/-- What is found about missing fields. -/
theorem allOf_missingFields (fields : HeaderFields) : AllOf fieldRules (missingFields fields) := by
  unfold missingFields
  refine AllOf.append ?_ ?_
  · split
    · exact AllOf.singleton (by decide) (Finding.isOf_onField rfl _)
    · exact AllOf.nil
  · split
    · exact AllOf.singleton (by decide) (Finding.isOf_onField rfl _)
    · exact AllOf.nil

/-- What is found when the header of a document is read. -/
theorem allOf_findings_ofDocument (d : Document) : AllOf (lineRules ++ fieldRules) (Extraction.ofDocument d).findings := by
  rw [Extraction.ofDocument_eq_meaning]
  have hl := (allOf_lineFindings d.headerStart d.header).mono fun rule hr => List.mem_append_left fieldRules hr
  have hm := (allOf_missingFields (fieldsOf d.header)).mono fun rule hr => List.mem_append_right lineRules hr
  exact hl.append hm

end Header

/-! ## The rules of the checks -/

namespace Check

open Finding (AllOf)

/-- The rules of each check. -/
def rules : Check → List Rule
  | name =>
    [.nameEmpty, .nameInvalidChars, .nameTooLong, .nameReservedWord, .nameAngleBrackets, .nameHyphenation, .nameGeneric]
  | description =>
    [.descriptionEmpty, .descriptionTooLong, .descriptionAngleBrackets, .descriptionPerson, .descriptionNoTrigger]
  | allowedTools => [.toolsEmpty, .toolsUnknown]
  | bodySize => [.bodyTooLong]
  | pathSeparators => [.bodyBackslashPath]
  | timeSensitive => [.bodyTimeSensitive]
  | references => [.referencesOutsidePackage, .referencesMissing]

theorem mem_all (check : Check) : check ∈ all := by
  cases check <;> decide

theorem eq_of_mem_rules {check other : Check} {rule : Rule} (h : rule ∈ check.rules) (h' : rule ∈ other.rules) :
    check = other := by
  have hall : ∀ a ∈ all, ∀ b ∈ all, ∀ rule ∈ a.rules, rule ∈ b.rules → a = b := by decide
  exact hall check (mem_all check) other (mem_all other) rule h h'

theorem notMem_headerRules_of_mem_rules {check : Check} {rule : Rule} (h : rule ∈ check.rules) :
    rule ∉ Header.lineRules ++ Header.fieldRules := by
  have hall : ∀ check ∈ all, ∀ rule ∈ check.rules, rule ∉ Header.lineRules ++ Header.fieldRules := by decide
  exact hall check (mem_all check) rule h

/-- What is found about a name. -/
theorem allOf_checkName (value : String) (most : Nat) : AllOf (rules name) (checkName value most) := by
  unfold checkName
  split
  · exact AllOf.singleton (by decide) (Finding.isOf_onField rfl _)
  · refine AllOf.append (AllOf.append (AllOf.append (AllOf.append (AllOf.append ?_ ?_) ?_) ?_) ?_) ?_
    · exact AllOf.listIf (by decide) (Finding.isOf_onField rfl _)
    · exact AllOf.listIf (by decide) (Finding.isOf_onField rfl _)
    · exact AllOf.map (by decide) fun _ => Finding.isOf_onField rfl _
    · exact AllOf.listIf (by decide) (Finding.isOf_onField rfl _)
    · exact AllOf.listIf (by decide) (Finding.isOf_onField rfl _)
    · exact AllOf.listIf (by decide) (Finding.isOf_onField rfl _)

/-- What is found about a description. -/
theorem allOf_checkDescription (value : String) (most : Nat) : AllOf (rules description) (checkDescription value most) := by
  unfold checkDescription
  split
  · exact AllOf.singleton (by decide) (Finding.isOf_onField rfl _)
  · refine AllOf.append (AllOf.append (AllOf.append ?_ ?_) ?_) ?_
    · exact AllOf.listIf (by decide) (Finding.isOf_onField rfl _)
    · exact AllOf.listIf (by decide) (Finding.isOf_onField rfl _)
    · exact AllOf.listIf (by decide) (Finding.isOf_onField rfl _)
    · exact AllOf.listIf (by decide) (Finding.isOf_onField rfl _)

/-- What is found about a tool list. -/
theorem allOf_checkTools (tools extra : List String) : AllOf (rules allowedTools) (checkTools tools extra) := by
  unfold checkTools
  split
  · exact AllOf.singleton (by decide) (Finding.isOf_onField rfl _)
  · exact AllOf.map (by decide) fun _ => Finding.isOf_onField rfl _

/-- What is found about a reference. -/
theorem allOf_checkReference (c : Context) (r : Markdown.Reference) : AllOf (rules references) (checkReference c r) := by
  intro f hf
  obtain ⟨-, -, ⟨-, rfl⟩ | ⟨-, rfl⟩⟩ := mem_checkReference_iff.1 hf
  · exact ⟨.referencesOutsidePackage, by decide, Finding.isOf_onLine rfl _ _⟩
  · exact ⟨.referencesMissing, by decide, Finding.isOf_onLine rfl _ _⟩

/-- Each check raises findings of its own rules. -/
theorem allOf_run (c : Context) (check : Check) : AllOf check.rules (run c check) := by
  cases check with
  | name =>
    rw [run, nameFindings]
    split
    · exact allOf_checkName _ _
    · exact AllOf.nil
  | description =>
    rw [run, descriptionFindings]
    split
    · exact allOf_checkDescription _ _
    · exact AllOf.nil
  | allowedTools =>
    rw [run, toolsFindings]
    split
    · exact allOf_checkTools _ _
    · exact AllOf.nil
  | bodySize => exact AllOf.listIf (by decide) (Finding.isOf_finding rfl _)
  | pathSeparators =>
    rw [run, pathSeparatorFindings]
    split
    · exact AllOf.singleton (by decide) (Finding.isOf_onLine rfl _ _)
    · exact AllOf.nil
  | timeSensitive =>
    intro f hf
    obtain ⟨lead, -, he⟩ := List.mem_filterMap.1 hf
    obtain ⟨anchor, -, rfl⟩ := Option.map_eq_some_iff.1 he
    exact ⟨.bodyTimeSensitive, by decide, Finding.isOf_onLine rfl _ _⟩
  | references =>
    intro f hf
    obtain ⟨r, -, hr⟩ := List.mem_flatMap.1 hf
    exact allOf_checkReference c r f hr

end Check

end SkillLint
