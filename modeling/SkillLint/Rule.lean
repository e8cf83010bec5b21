import SkillLint.Report

/-!
# The rules

The table of published rules: each has a code and a severity, and a finding that a rule raises carries both. The code's
family tells which part of the document the rule is about.
-/

namespace SkillLint

/-- The published rules, in the order in which a report can show them. -/
inductive Rule where
  | headerMalformedLine
  | headerDuplicateKey
  | headerUnknownKey
  | headerMissingName
  | headerMissingDescription
  | nameEmpty
  | nameInvalidChars
  | nameTooLong
  | nameReservedWord
  | nameAngleBrackets
  | nameHyphenation
  | nameGeneric
  | descriptionEmpty
  | descriptionTooLong
  | descriptionAngleBrackets
  | descriptionPerson
  | descriptionNoTrigger
  | toolsEmpty
  | toolsUnknown
  | bodyTooLong
  | bodyBackslashPath
  | bodyTimeSensitive
  | referencesOutsidePackage
  | referencesMissing
deriving DecidableEq, Repr

namespace Rule

/-- The code under which a rule is published. -/
def code : Rule → String
  | headerMalformedLine => "header/malformed-line"
  | headerDuplicateKey => "header/duplicate-key"
  | headerUnknownKey => "header/unknown-key"
  | headerMissingName => "header/missing-name"
  | headerMissingDescription => "header/missing-description"
  | nameEmpty => "name/empty"
  | nameInvalidChars => "name/invalid-chars"
  | nameTooLong => "name/too-long"
  | nameReservedWord => "name/reserved-word"
  | nameAngleBrackets => "name/angle-brackets"
  | nameHyphenation => "name/hyphenation"
  | nameGeneric => "name/generic"
  | descriptionEmpty => "description/empty"
  | descriptionTooLong => "description/too-long"
  | descriptionAngleBrackets => "description/angle-brackets"
  | descriptionPerson => "description/person"
  | descriptionNoTrigger => "description/no-trigger"
  | toolsEmpty => "tools/empty"
  | toolsUnknown => "tools/unknown"
  | bodyTooLong => "body/too-long"
  | bodyBackslashPath => "body/backslash-path"
  | bodyTimeSensitive => "body/time-sensitive"
  | referencesOutsidePackage => "references/outside-package"
  | referencesMissing => "references/missing"

/-- The severity of the findings of a rule. -/
def severity : Rule → Severity
  | headerMissingName | headerMissingDescription => .error
  | nameEmpty | nameInvalidChars | nameTooLong | nameReservedWord | nameAngleBrackets => .error
  | descriptionEmpty | descriptionTooLong | descriptionAngleBrackets => .error
  | bodyBackslashPath | referencesMissing => .error
  | _ => .warning

/-- The finding that a rule raises, without a location. -/
def finding (rule : Rule) (message : String) : Finding :=
  ⟨rule.severity, rule.code, message, none⟩

/-- The finding that a rule raises about a header field. -/
def onField (rule : Rule) (key message : String) : Finding :=
  ⟨rule.severity, rule.code, message, some (.field key)⟩

/-- The finding that a rule raises about a line of the document. -/
def onLine (rule : Rule) (number : Nat) (message : String) : Finding :=
  ⟨rule.severity, rule.code, message, some (.line number)⟩

end Rule

end SkillLint
