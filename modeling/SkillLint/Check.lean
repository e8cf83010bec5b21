import SkillLint.Check.Body
import SkillLint.Check.Fields
import SkillLint.Report

/-!
# Checks

There are seven checks: three for the fields of the header, three for the body and one for the references. Each looks at
the context on its own, so that a pipeline of checks makes the findings of its members, one after the other.
-/

namespace SkillLint

/-- The checks that a validation run is made of. -/
inductive Check where
  | name
  | description
  | allowedTools
  | bodySize
  | pathSeparators
  | timeSensitive
  | references
deriving DecidableEq, Repr

namespace Check

/-- The checks in the order in which a validation run makes them. -/
def all : List Check :=
  [.name, .description, .allowedTools, .bodySize, .pathSeparators, .timeSensitive, .references]

/-- The name under which a report lists a check. -/
def label : Check → String
  | name => "name"
  | description => "description"
  | allowedTools => "allowed-tools"
  | bodySize => "body size"
  | pathSeparators => "path separators"
  | timeSensitive => "time-sensitive wording"
  | references => "references"

/-- The check with a given label. -/
def ofLabel? (text : String) : Option Check :=
  all.find? fun check => check.label == text

/-- The findings of one check. -/
def run (context : Context) : Check → List Finding
  | name => nameFindings context
  | description => descriptionFindings context
  | allowedTools => toolsFindings context
  | bodySize => bodySizeFindings context
  | pathSeparators => pathSeparatorFindings context
  | timeSensitive => timeSensitiveFindings context
  | references => referenceFindings context

/-- The report of a pipeline of checks. -/
def runAll (context : Context) (checks : List Check) : Report :=
  ⟨checks.map label, checks.flatMap (run context)⟩

end Check

end SkillLint
