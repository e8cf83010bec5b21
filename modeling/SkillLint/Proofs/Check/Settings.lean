import SkillLint.Proofs.Rule
import SkillLint.Proofs.Verdict

/-!
# What the checks see of the settings

Four of the seven checks look at one setting each: a limit, or the further tools. The others look at none. The check of the
tools and that of the size of the body raise no errors, so the errors depend on the limits of the name and the description only;
and the further tools that are known take away nothing but findings about entries that name one of them.
-/

namespace SkillLint

open Finding (ErrorFree)

namespace Check

/-- Whether two configurations look the same to a check: they agree on the setting that it looks at. -/
def SeesSame (a b : Config) : Check → Prop
  | name => a.thresholds.maxNameLength = b.thresholds.maxNameLength
  | description => a.thresholds.maxDescriptionLength = b.thresholds.maxDescriptionLength
  | allowedTools => a.extraTools = b.extraTools
  | bodySize => a.thresholds.maxBodyLines = b.thresholds.maxBodyLines
  | pathSeparators | timeSensitive | references => True

variable (e : Extraction) (present : String → Bool) {a b : Config}

/-- A check finds the same under configurations that look the same to it. -/
theorem run_eq_of_seesSame {check : Check} (h : check.SeesSame a b) :
    run (e.context a present) check = run (e.context b present) check := by
  cases check with
  | name =>
    simp only [SeesSame] at h
    simp only [run, nameFindings, Extraction.context, h]
  | description =>
    simp only [SeesSame] at h
    simp only [run, descriptionFindings, Extraction.context, h]
  | allowedTools =>
    simp only [SeesSame] at h
    simp only [run, toolsFindings, Extraction.context, h]
  | bodySize =>
    have hm : (e.context a present).config.thresholds.maxBodyLines =
        (e.context b present).config.thresholds.maxBodyLines := h
    rw [run, bodySizeFindings, hm]
    rfl
  | pathSeparators => rfl
  | timeSensitive => rfl
  | references => rfl

/-! ## Errors -/

theorem errorFree_run {check : Check} (h : check = allowedTools ∨ check = bodySize) (c : Context) : ErrorFree (run c check) := by
  rcases h with rfl | rfl
  · exact errorFree_toolsFindings c
  · exact errorFree_bodySizeFindings c

/-- The errors of a check are the same under configurations with the same limits of the name and the description. -/
theorem errors_run_eq (hn : a.thresholds.maxNameLength = b.thresholds.maxNameLength)
    (hd : a.thresholds.maxDescriptionLength = b.thresholds.maxDescriptionLength) (check : Check) :
    (run (e.context a present) check).filter Finding.isError = (run (e.context b present) check).filter Finding.isError := by
  have hfree : check = allowedTools ∨ check = bodySize →
      (run (e.context a present) check).filter Finding.isError =
        (run (e.context b present) check).filter Finding.isError := fun h => by
    rw [Finding.filter_isError_eq_nil_iff.2 (errorFree_run h _), Finding.filter_isError_eq_nil_iff.2 (errorFree_run h _)]
  cases check with
  | name => rw [run_eq_of_seesSame e present (show SeesSame a b name from hn)]
  | description => rw [run_eq_of_seesSame e present (show SeesSame a b description from hd)]
  | allowedTools => exact hfree (.inl rfl)
  | bodySize => exact hfree (.inr rfl)
  | pathSeparators => rfl
  | timeSensitive => rfl
  | references => rfl

/-! ## Unknown tools -/

/-- The finding about an entry of the tool list that names no known tool. -/
def unknownTool (entry : String) : Finding :=
  Rule.toolsUnknown.onField "allowed-tools" ("Unrecognized tool '" ++ entry ++ "' in allowed-tools")

/-- Findings about different entries differ. -/
theorem unknownTool_injective : Function.Injective unknownTool := by
  intro entry other h
  have hm := congrArg (fun f => f.message.toList) h
  refine String.toList_injective ?_
  simpa [unknownTool, Rule.onField, String.toList_append] using hm

/-- What is found about tools that are listed: one finding for each entry that names no known tool. -/
theorem checkTools_of_ne_nil {tools : List String} (h : tools ≠ []) (extra : List String) :
    checkTools tools extra = (tools.filter fun entry => !isKnownTool entry extra).map unknownTool := by
  rw [checkTools, if_neg (by simp [h])]
  rfl

/-- More tools known: an entry names a known tool if it did before or if it names one of them. -/
theorem isKnownTool_of_subset {extra more : List String} (h : ∀ tool ∈ extra, tool ∈ more) (entry : String) :
    isKnownTool entry more = (isKnownTool entry extra || decide (toolName entry ∈ more)) := by
  by_cases he : toolName entry ∈ extra
  · simp [isKnownTool, he, h _ he]
  · simp [isKnownTool, he]

/-- With more tools known, the findings about entries that name one of them are gone, and the others are the same. -/
theorem checkTools_of_subset {extra more : List String} (h : ∀ tool ∈ extra, tool ∈ more) {gone : Finding → Bool}
    (hgone : ∀ f, gone f = true ↔ ∃ entry, f = unknownTool entry ∧ toolName entry ∈ more) (tools : List String) :
    checkTools tools more = (checkTools tools extra).filter fun f => !gone f := by
  have hentry : ∀ entry, gone (unknownTool entry) = decide (toolName entry ∈ more) := fun entry => by
    rw [Bool.eq_iff_iff, hgone, decide_eq_true_iff]
    exact ⟨fun ⟨other, ho, hm⟩ => unknownTool_injective ho ▸ hm, fun hm => ⟨entry, rfl, hm⟩⟩
  by_cases ht : tools = []
  · have hempty : gone (Rule.toolsEmpty.onField "allowed-tools" "allowed-tools is present but lists no tools") = false := by
      rw [Bool.eq_false_iff, Ne, hgone]
      rintro ⟨entry, hf, -⟩
      have hrule : Rule.toolsEmpty.code = Rule.toolsUnknown.code := congrArg Finding.rule hf
      exact absurd hrule (by decide)
    simp [checkTools, ht, hempty]
  · rw [checkTools_of_ne_nil ht, checkTools_of_ne_nil ht, List.filter_map, List.filter_filter]
    refine congrArg _ (List.filter_congr fun entry _ => ?_)
    rw [Function.comp_apply, hentry, isKnownTool_of_subset h, Bool.not_or, Bool.and_comm]

/-- With more tools known, each check finds what it found before but for the findings about entries that name one of them. -/
theorem run_of_subset (ht : b.thresholds = a.thresholds) (h : ∀ tool ∈ a.extraTools, tool ∈ b.extraTools)
    {gone : Finding → Bool}
    (hgone : ∀ f, gone f = true ↔ ∃ entry, f = unknownTool entry ∧ toolName entry ∈ b.extraTools) (check : Check) :
    run (e.context b present) check = (run (e.context a present) check).filter fun f => !gone f := by
  -- The other checks raise no findings of this rule, so nothing is taken from theirs.
  have hother : Rule.toolsUnknown.code ∉ check.rules.map Rule.code → check.SeesSame b a →
      run (e.context b present) check = (run (e.context a present) check).filter fun f => !gone f := fun hr hsame => by
    rw [run_eq_of_seesSame e present hsame]
    refine (List.filter_eq_self.2 fun f hf => ?_).symm
    rw [Bool.not_eq_true', Bool.eq_false_iff, Ne, hgone]
    rintro ⟨entry, rfl, -⟩
    obtain ⟨rule, hmem, hof⟩ := allOf_run _ check _ hf
    exact hr (List.mem_map.2 ⟨rule, hmem, hof.code.symm⟩)
  cases check with
  | allowedTools =>
    simp only [run, toolsFindings, Extraction.context]
    cases e.fields.allowedTools with
    | none => rfl
    | some tools => exact checkTools_of_subset h hgone tools
  | name => exact hother (by decide) (congrArg Thresholds.maxNameLength ht)
  | description => exact hother (by decide) (congrArg Thresholds.maxDescriptionLength ht)
  | bodySize => exact hother (by decide) (congrArg Thresholds.maxBodyLines ht)
  | pathSeparators => exact hother (by decide) trivial
  | timeSensitive => exact hother (by decide) trivial
  | references => exact hother (by decide) trivial

end Check

end SkillLint
