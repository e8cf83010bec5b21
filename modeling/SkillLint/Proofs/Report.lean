import SkillLint.Check.Fields
import SkillLint.Proofs.Text.Trim
import SkillLint.Report
import SkillLint.Rule

/-!
# Findings and reports

Facts about lists of findings, and about what a report makes of them.
-/

namespace SkillLint

namespace Finding

/-!
## Findings that fail no package

Lists of findings without an error in them, put together the way the checks put theirs together. Whether a finding is an error
depends on its rule alone, so that a rule of warnings adds no error, and a rule of errors adds one exactly when its condition
holds.
-/

/-- Whether a list of findings has no error in it. -/
def ErrorFree (fs : List Finding) : Prop :=
  ∀ f ∈ fs, f.isError = false

instance (fs : List Finding) : Decidable (ErrorFree fs) :=
  inferInstanceAs (Decidable (∀ f ∈ fs, f.isError = false))

@[simp] theorem errorFree_nil : ErrorFree [] := by
  simp [ErrorFree]

@[simp] theorem errorFree_singleton_iff {f : Finding} : ErrorFree [f] ↔ f.isError = false := by
  simp [ErrorFree]

@[simp] theorem errorFree_append_iff {fs gs : List Finding} : ErrorFree (fs ++ gs) ↔ ErrorFree fs ∧ ErrorFree gs := by
  simp only [ErrorFree, List.mem_append]
  exact ⟨fun h => ⟨fun f hf => h f (.inl hf), fun f hf => h f (.inr hf)⟩, fun h f hf => hf.elim (h.1 f) (h.2 f)⟩

theorem errorFree_flatMap_iff {α : Type} {xs : List α} {g : α → List Finding} :
    ErrorFree (xs.flatMap g) ↔ ∀ x ∈ xs, ErrorFree (g x) := by
  simp only [ErrorFree, List.mem_flatMap]
  exact ⟨fun h x hx f hf => h f ⟨x, hx, hf⟩, fun h f ⟨x, hx, hf⟩ => h x hx f hf⟩

theorem mem_listIf {condition : Bool} {f g : Finding} : f ∈ listIf condition g ↔ condition = true ∧ f = g := by
  cases condition <;> simp [listIf]

/-- Of a finding that is made on a condition, a test keeps it if it passes. -/
theorem filter_listIf (p : Finding → Bool) (condition : Bool) (f : Finding) :
    (listIf condition f).filter p = listIf (condition && p f) f := by
  cases condition with
  | false => rfl
  | true => cases h : p f <;> simp [listIf, h]

theorem errorFree_listIf_of_error {condition : Bool} {f : Finding} (h : f.isError = true) :
    ErrorFree (listIf condition f) ↔ condition = false := by
  cases condition <;> simp [listIf, h]

theorem errorFree_listIf_of_warning {condition : Bool} {f : Finding} (h : f.isError = false) :
    ErrorFree (listIf condition f) := by
  cases condition <;> simp [listIf, h]

/-- When each element of a list makes an error, there is none exactly when the list is empty. -/
theorem errorFree_map_of_error {α : Type} {xs : List α} {g : α → Finding} (h : ∀ x, (g x).isError = true) :
    ErrorFree (xs.map g) ↔ xs = [] := by
  cases xs with
  | nil => simp
  | cons x xs => simp [ErrorFree, h]

theorem filter_isError_eq_nil_iff {fs : List Finding} : fs.filter isError = [] ↔ ErrorFree fs := by
  simp [ErrorFree, List.filter_eq_nil_iff]

end Finding

namespace Rule

/-- Whether a rule makes errors. -/
def isError (rule : Rule) : Bool :=
  rule.severity == .error

@[simp] theorem isError_onField (rule : Rule) (key message : String) :
    (rule.onField key message).isError = rule.isError := rfl

@[simp] theorem isError_onLine (rule : Rule) (number : Nat) (message : String) :
    (rule.onLine number message).isError = rule.isError := rfl

end Rule

/-- A report has exit status zero exactly when it has no error, whatever rules are disabled. -/
theorem Report.exitCode_withoutDisabled_eq_zero_iff (r : Report) (patterns : List String) :
    (r.withoutDisabled patterns).exitCode = 0 ↔ Finding.ErrorFree r.findings := by
  rw [exitCode_eq_zero_iff, passed, errors_withoutDisabled, errors, List.isEmpty_iff, Finding.filter_isError_eq_nil_iff]

namespace Finding

/-!
## Disabled rules

Disabling takes out of a report the warnings whose rule is named by one of the patterns, by its code or by its family, and
nothing else. Disabling nothing leaves a report as it is, and disabling twice is disabling all the patterns at once.
-/

/-- Whether one of the patterns is the code of the finding's rule, or the family of it: the text before the first slash. -/
def IsNamedBy (f : Finding) (patterns : List String) : Prop :=
  f.rule ∈ patterns ∨
    ∃ family ∈ patterns, '/' ∉ family.toList ∧ ∃ name, f.rule.toList = family.toList ++ '/' :: name

/-- The family of a rule is what stands before the first slash of its code. -/
theorem family?_eq_some_iff {f : Finding} {family : String} :
    f.family? = some family ↔ '/' ∉ family.toList ∧ ∃ name, f.rule.toList = family.toList ++ '/' :: name := by
  unfold family?
  constructor
  · intro h
    obtain ⟨hs, rfl⟩ : '/' ∈ f.rule.toList ∧ String.ofList (f.rule.toList.takeWhile (· != '/')) = family := by
      simpa using h
    obtain ⟨name, hd⟩ := Text.exists_dropWhile_ne hs
    rw [String.toList_ofList]
    exact ⟨Text.not_mem_takeWhile_ne _ _, name, (Text.dropWhile_eq_cons hd).2.1⟩
  · rintro ⟨hn, name, h⟩
    rw [h, if_pos (by simp), Text.takeWhile_append_cons (Text.forall_ne_of_not_mem hn) (by simp), String.ofList_toList]

/-- Some pattern matches a finding exactly when the patterns name its rule. -/
theorem any_matchesPattern_iff {f : Finding} {patterns : List String} :
    patterns.any f.matchesPattern = true ↔ f.IsNamedBy patterns := by
  simp only [List.any_eq_true, matchesPattern, Bool.or_eq_true, beq_iff_eq, family?_eq_some_iff, IsNamedBy]
  constructor
  · rintro ⟨pattern, hp, rfl | h⟩
    · exact .inl hp
    · exact .inr ⟨pattern, hp, h⟩
  · rintro (h | ⟨family, hp, h⟩)
    · exact ⟨_, h, .inl rfl⟩
    · exact ⟨family, hp, .inr h⟩

instance (f : Finding) (patterns : List String) : Decidable (f.IsNamedBy patterns) :=
  decidable_of_iff _ any_matchesPattern_iff

end Finding

namespace Report

/-- A finding stays unless it is a warning whose rule is named by the patterns. -/
theorem keeps_iff {patterns : List String} {f : Finding} :
    keeps patterns f = true ↔ ¬(f.severity = .warning ∧ f.IsNamedBy patterns) := by
  rw [keeps, Bool.or_eq_true, Bool.not_eq_true', ← Finding.any_matchesPattern_iff]
  cases hs : f.severity with
  | warning => simp [Finding.isError, hs]
  | error => simp [Finding.isError, hs]

/-- Disabling rules takes out the warnings whose rules are named. -/
theorem withoutDisabled_eq (r : Report) (patterns : List String) : r.withoutDisabled patterns =
    { r with findings := r.findings.filter fun f => ¬(f.severity = .warning ∧ f.IsNamedBy patterns) } := by
  have h : r.findings.filter (keeps patterns) =
      r.findings.filter fun f => ¬(f.severity = .warning ∧ f.IsNamedBy patterns) :=
    List.filter_congr fun f _ => Bool.eq_iff_iff.2 (by rw [keeps_iff, decide_eq_true_iff])
  rw [withoutDisabled, h]

theorem withoutDisabled_nil (r : Report) : r.withoutDisabled [] = r := by
  have h : r.findings.filter (keeps []) = r.findings := List.filter_eq_self.2 fun f _ => by simp [keeps]
  rw [withoutDisabled, h]

theorem keeps_append (first second : List String) (f : Finding) :
    keeps (first ++ second) f = (keeps first f && keeps second f) := by
  rw [keeps, keeps, keeps, List.any_append]
  cases f.isError <;> simp

/-- Disabling twice is disabling all patterns at once. -/
theorem withoutDisabled_withoutDisabled (r : Report) (first second : List String) :
    (r.withoutDisabled first).withoutDisabled second = r.withoutDisabled (first ++ second) := by
  have h : (r.findings.filter (keeps first)).filter (keeps second) = r.findings.filter (keeps (first ++ second)) := by
    rw [List.filter_filter]
    exact List.filter_congr fun f _ => by rw [keeps_append, Bool.and_comm]
  rw [withoutDisabled, withoutDisabled, withoutDisabled, h]

/-- The patterns may be disabled in any order. -/
theorem withoutDisabled_append_comm (r : Report) (first second : List String) :
    r.withoutDisabled (first ++ second) = r.withoutDisabled (second ++ first) := by
  have h : r.findings.filter (keeps (first ++ second)) = r.findings.filter (keeps (second ++ first)) :=
    List.filter_congr fun f _ => by rw [keeps_append, keeps_append, Bool.and_comm]
  rw [withoutDisabled, withoutDisabled, h]

end Report

end SkillLint
