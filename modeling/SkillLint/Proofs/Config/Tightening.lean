import Mathlib.Data.List.Flatten
import Mathlib.Data.Multiset.Basic
import SkillLint.Config.Lookup
import SkillLint.Proofs.Config.Independence

/-!
# Configurations that are loaded only tighten

A configuration that can be loaded has no fault, wherever it comes from, so its limits of the name and the description are at
most the standard ones. With smaller limits a check finds the errors that it found before, and possibly more: the rules of the
errors, in their order, are among the rules of the new ones.
-/

namespace SkillLint

/-! ## Errors under smaller limits -/

namespace Finding

/-- The rules of the errors among some findings, in their order. -/
def errorRules (fs : List Finding) : List String :=
  (fs.filter isError).map Finding.rule

theorem errorRules_append (fs gs : List Finding) : errorRules (fs ++ gs) = errorRules fs ++ errorRules gs := by
  rw [errorRules, List.filter_append, List.map_append, errorRules, errorRules]

theorem errorRules_flatMap {α : Type} (xs : List α) (g : α → List Finding) :
    errorRules (xs.flatMap g) = xs.flatMap fun x => errorRules (g x) := by
  rw [errorRules, List.filter_flatMap, List.map_flatMap]
  rfl

/-- A finding that is made on a weaker condition is made wherever it was made before. -/
theorem errorRules_listIf_sublist {strong weak : Bool} (h : strong = true → weak = true) {f g : Finding}
    (hr : f.rule = g.rule) (hs : f.severity = g.severity) :
    (errorRules (listIf strong f)).Sublist (errorRules (listIf weak g)) := by
  cases strong with
  | false => exact List.nil_sublist _
  | true =>
    have he : f.isError = g.isError := by rw [isError, hs, isError]
    rw [h rfl, listIf, if_pos rfl, listIf, if_pos rfl, errorRules, errorRules]
    cases hf : f.isError with
    | false => simp [hf]
    | true => simp [hf, ← he, hr]

end Finding

namespace Check

open Finding (errorRules)

/-- A name that is too long for a limit is too long for a smaller one, and its other errors do not depend on the limit. -/
theorem errorRules_checkName_sublist (name : String) {small large : Nat} (h : small ≤ large) :
    (errorRules (checkName name large)).Sublist (errorRules (checkName name small)) := by
  have same : ∀ rules : List String, rules.Sublist rules := List.Sublist.refl
  unfold checkName
  split
  · exact same _
  · simp only [Finding.errorRules_append]
    refine (((((same _).append ?_).append (same _)).append (same _)).append (same _)).append (same _)
    refine Finding.errorRules_listIf_sublist (fun hlong => ?_) rfl rfl
    rw [decide_eq_true_iff] at hlong ⊢
    exact Nat.lt_of_le_of_lt h hlong

/-- A description that is too long for a limit is too long for a smaller one, and its other errors do not depend on the
limit. -/
theorem errorRules_checkDescription_sublist (description : String) {small large : Nat} (h : small ≤ large) :
    (errorRules (checkDescription description large)).Sublist (errorRules (checkDescription description small)) := by
  have same : ∀ rules : List String, rules.Sublist rules := List.Sublist.refl
  unfold checkDescription
  split
  · exact same _
  · simp only [Finding.errorRules_append]
    refine ((List.Sublist.append ?_ (same _)).append (same _)).append (same _)
    refine Finding.errorRules_listIf_sublist (fun hlong => ?_) rfl rfl
    rw [decide_eq_true_iff] at hlong ⊢
    exact Nat.lt_of_le_of_lt h hlong

variable (e : Extraction) (present : String → Bool) {a b : Config}

/-- Under smaller limits of the name and the description a check finds errors of the same rules, and possibly more. -/
theorem errorRules_run_sublist (hn : a.thresholds.maxNameLength ≤ b.thresholds.maxNameLength)
    (hd : a.thresholds.maxDescriptionLength ≤ b.thresholds.maxDescriptionLength) (check : Check) :
    (errorRules (run (e.context b present) check)).Sublist (errorRules (run (e.context a present) check)) := by
  have hfree : check = allowedTools ∨ check = bodySize →
      (errorRules (run (e.context b present) check)).Sublist (errorRules (run (e.context a present) check)) := fun h => by
    rw [errorRules, Finding.filter_isError_eq_nil_iff.2 (errorFree_run h _)]
    exact List.nil_sublist _
  cases check with
  | name =>
    simp only [run, nameFindings, Extraction.context]
    cases e.fields.name with
    | none => exact List.Sublist.refl _
    | some name => exact errorRules_checkName_sublist name hn
  | description =>
    simp only [run, descriptionFindings, Extraction.context]
    cases e.fields.description with
    | none => exact List.Sublist.refl _
    | some description => exact errorRules_checkDescription_sublist description hd
  | allowedTools => exact hfree (.inl rfl)
  | bodySize => exact hfree (.inr rfl)
  | pathSeparators => exact List.Sublist.refl _
  | timeSensitive => exact List.Sublist.refl _
  | references => exact List.Sublist.refl _

end Check

/-- Under smaller limits of the name and the description a report has errors of the same rules, and possibly more. -/
theorem Extraction.errorRules_report_sublist (e : Extraction) (present : String → Bool) {a b : Config}
    (hn : a.thresholds.maxNameLength ≤ b.thresholds.maxNameLength)
    (hd : a.thresholds.maxDescriptionLength ≤ b.thresholds.maxDescriptionLength) :
    ((e.report b present).errors.map Finding.rule).Sublist ((e.report a present).errors.map Finding.rule) := by
  have hall : (Finding.errorRules (e.allFindings present b)).Sublist (Finding.errorRules (e.allFindings present a)) := by
    rw [allFindings, allFindings, Finding.errorRules_append, Finding.errorRules_append, Finding.errorRules_flatMap,
      Finding.errorRules_flatMap]
    exact (List.Sublist.refl _).append
      (List.Sublist.flatMap_right _ fun check _ => Check.errorRules_run_sublist e present hn hd check)
  rw [errors_report, errors_report]
  exact hall

/-! ## Configurations that are loaded -/

namespace Config

/-- A configuration that is read has no fault. -/
theorem fault?_eq_none_of_ofText {content : String} {config : Config} (h : ofText content = .ok config) :
    config.fault? = none := by
  unfold ofText at h
  split at h
  · exact absurd h (by simp)
  · split at h
    · exact absurd h (by simp)
    · split at h
      · exact absurd h (by simp)
      · rename_i hf
        exact Except.ok.inj h ▸ hf

/-- A configuration from a file has no fault. -/
theorem fault?_eq_none_of_loadFile {t : FileTree} {path : Path} {config : Config} (h : loadFile t path = .ok config) :
    config.fault? = none := by
  unfold loadFile at h
  split at h
  · exact absurd h (by simp)
  · split at h
    · exact absurd h (by simp)
    · rename_i hr
      exact fault?_eq_none_of_ofText (Except.ok.inj h ▸ hr)

/-- A configuration that is loaded has no fault, whichever source it comes from. -/
theorem fault?_eq_none_of_load {t : FileTree} {s : Sources} {config : Config} (h : load t s = .ok config) :
    config.fault? = none := by
  unfold load at h
  split at h
  · exact fault?_eq_none_of_loadFile h
  · split at h
    · rename_i name _
      cases hl : loadFile t ⟨name⟩ with
      | error error => exact absurd h (by simp [hl, Except.mapError])
      | ok loaded =>
        rw [hl] at h
        exact Except.ok.inj h ▸ fault?_eq_none_of_loadFile hl
    · split at h
      · exact fault?_eq_none_of_loadFile h
      · exact Except.ok.inj h ▸ rfl

end Config

/-- A report fails when it has errors of all the rules of the errors of a report that fails. -/
theorem Report.passed_eq_false_of_sublist {r s : Report}
    (h : (r.errors.map Finding.rule).Sublist (s.errors.map Finding.rule)) (hr : r.passed = false) : s.passed = false := by
  have hne : r.errors ≠ [] := fun e => by simp [passed, e] at hr
  rw [passed, List.isEmpty_eq_false_iff]
  intro e
  rw [e] at h
  exact hne (List.map_eq_nil_iff.1 (List.sublist_nil.1 h))

/-- A package that is validated under a configuration that was loaded, from whatever source, has at least the errors that it
has under the standard one: their rules are contained, with multiplicity, and a package that fails under the standard
configuration fails. A document without a header gives no report under either. -/
theorem Config.load_tightens {t : FileTree} {s : Sources} {config : Config} (h : load t s = .ok config) (u : FileTree)
    (p : Package) :
    ((Text.lines p.content.toList).countP Document.isDelimiter < 2 →
        p.validate u {} = .error .missingHeader ∧ p.validate u config = .error .missingHeader) ∧
      (2 ≤ (Text.lines p.content.toList).countP Document.isDelimiter →
        ∃ standard loaded : Report, p.validate u {} = .ok standard ∧ p.validate u config = .ok loaded ∧
          (standard.errors.map Finding.rule : Multiset String) ≤ (loaded.errors.map Finding.rule : Multiset String) ∧
          (standard.passed = false → loaded.passed = false ∧ loaded.exitCode = 1)) := by
  obtain ⟨⟨-, hn⟩, ⟨-, hd⟩, -⟩ := (fault?_eq_none_iff config).1 (fault?_eq_none_of_load h)
  refine ⟨fun hfew => ⟨p.validate_of_countP_lt u hfew {}, p.validate_of_countP_lt u hfew config⟩, fun htwo => ?_⟩
  obtain ⟨d, -, hreport⟩ := p.exists_validate_eq u htwo
  have hsub := (Extraction.ofDocument d).errorRules_report_sublist (p.holds u) (b := {}) hn hd
  refine ⟨_, _, hreport {}, hreport config, Multiset.coe_le.2 hsub.subperm, fun hfail => ?_⟩
  have hloaded := Report.passed_eq_false_of_sublist hsub hfail
  exact ⟨hloaded, by rw [Report.exitCode, hloaded]; rfl⟩

/-- A configuration from the file that the variable names, with a limit of three characters for names: a package without a
description fails under the standard configuration, so it fails under this one, where its name is too long as well. -/
theorem Config.load_tightens_named :
    let t : FileTree := ⟨[(["c.md"], .file "---\nlint: {thresholds: {max_name_length: 3}}\n---\n".toUTF8)], []⟩
    let config : Config := { thresholds := { maxNameLength := 3 } }
    let p : Package := ⟨⟨"a"⟩, "---\nname: ab-c\n---\n"⟩
    load t { named := some "c.md" } = .ok config ∧
      ∃ standard loaded : Report, p.validate t {} = .ok standard ∧ p.validate t config = .ok loaded ∧
        (standard.errors.map Finding.rule : Multiset String) ≤ (loaded.errors.map Finding.rule : Multiset String) ∧
        loaded.passed = false := by
  intro t config p
  have hload : load t { named := some "c.md" } = .ok config := by
    decide +kernel
  obtain ⟨standard, loaded, hs, hl, hle, hfail⟩ := (load_tightens hload t p).2 (by decide +kernel)
  have hpassed : (p.validate t {}).map Report.passed = .ok false := by decide +kernel
  rw [hs] at hpassed
  exact ⟨hload, standard, loaded, hs, hl, hle, (hfail (Except.ok.inj hpassed)).1⟩

end SkillLint
