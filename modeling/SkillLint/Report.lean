/-!
# Findings and reports

What a validation run finds, and what it makes of that.
-/

namespace SkillLint

/-!
## Findings

A finding is one remark about a package: how grave it is, the code of the rule that raised it, a message and, where one
is known, the header field or the document line it is about. A rule code is a family and a name, as in `name/too-long`;
a pattern names a rule by its whole code or by its family.
-/

/-- How grave a finding is: an error fails the package, a warning does not. -/
inductive Severity where
  | warning
  | error
deriving DecidableEq, Repr

/-- What a finding is about. -/
inductive Location where
  /-- A header field, by its key. -/
  | field (key : String)
  /-- A line of the document, counted from one. -/
  | line (number : Nat)
deriving DecidableEq, Repr

/-- A location as it is shown before a message. -/
def Location.text : Location → String
  | .field key => key
  | .line number => "line " ++ toString number

/-- One remark about a package. -/
structure Finding where
  severity : Severity
  /-- The code of the rule, a family and a name with a slash between them. -/
  rule : String
  message : String
  location : Option Location
deriving DecidableEq, Repr

namespace Finding

/-- Whether the finding fails its package. -/
def isError (f : Finding) : Bool :=
  f.severity == .error

/-- The family of the rule: the text before the first slash of its code, if there is a slash. -/
def family? (f : Finding) : Option String :=
  if '/' ∈ f.rule.toList then some (String.ofList (f.rule.toList.takeWhile (· != '/'))) else none

/-- Whether a pattern names the finding's rule or its family. -/
def matchesPattern (f : Finding) (pattern : String) : Bool :=
  f.rule == pattern || f.family? == some pattern

/-- The message with the location before it. -/
def text (f : Finding) : String :=
  match f.location with
  | some location => location.text ++ ": " ++ f.message
  | none => f.message

theorem isError_iff (f : Finding) : f.isError = true ↔ f.severity = .error := by
  simp [isError]

theorem not_isError_iff (f : Finding) : f.isError = false ↔ f.severity = .warning := by
  cases h : f.severity <;> simp [isError, h]

end Finding

/-!
## Reports

A report holds the names of the checks that ran and all findings, in the order in which they were made. The verdict
depends on its errors alone, and disabling rules takes away warnings only.
-/

/-- The outcome of one validation run. -/
structure Report where
  /-- The names of the checks that ran, in order. -/
  checks : List String
  /-- All findings, in the order in which they were made. -/
  findings : List Finding
deriving DecidableEq, Repr

namespace Report

/-- Whether a finding stays when the rules and families named by the patterns are disabled. -/
def keeps (patterns : List String) (f : Finding) : Bool :=
  f.isError || !patterns.any f.matchesPattern

/-- The report without the warnings of disabled rules. -/
def withoutDisabled (r : Report) (patterns : List String) : Report :=
  { r with findings := r.findings.filter (keeps patterns) }

/-- The errors, in report order. -/
def errors (r : Report) : List Finding :=
  r.findings.filter Finding.isError

/-- The warnings, in report order. -/
def warnings (r : Report) : List Finding :=
  r.findings.filter fun f => !f.isError

/-- Whether the package passes: there is no error, and warnings do not count. -/
def passed (r : Report) : Bool :=
  r.errors.isEmpty

/-- Whether there is no finding at all. -/
def clean (r : Report) : Bool :=
  r.findings.isEmpty

/-- The exit status that tells the verdict. -/
def exitCode (r : Report) : Nat :=
  if r.passed then 0 else 1

/-- Disabling rules keeps every error. -/
theorem errors_withoutDisabled (r : Report) (patterns : List String) : (r.withoutDisabled patterns).errors = r.errors := by
  simp only [errors, withoutDisabled, List.filter_filter]
  apply List.filter_congr
  intro f _
  cases h : f.isError <;> simp [keeps, h]

theorem exitCode_eq_zero_iff (r : Report) : r.exitCode = 0 ↔ r.passed = true := by
  cases h : r.passed <;> simp [exitCode, h]

end Report

end SkillLint
