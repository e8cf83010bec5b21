import SkillLint.Check.Body
import SkillLint.Proofs.Report

/-!
# What is found about references

A reference that names a file draws a finding when it leads out of the package, and one when the file is missing. Of the two only
the missing file is an error.
-/

namespace SkillLint.Check

/-- Whether every file that the links of a text name is present. -/
def HasFiles (body : String) (present : String → Bool) : Prop :=
  ∀ r ∈ Markdown.references body, isExternal r.target = false → filePart r.target ≠ "" →
    present (filePart r.target) = true

/-- The finding about a reference that leads out of the package. -/
def outsidePackage (number : Nat) (target : String) : Finding :=
  Rule.referencesOutsidePackage.onLine number
    ("Reference '" ++ target ++ "' points outside the package; bundle the file instead")

/-- The finding about a file that is not there. -/
def missingFile (number : Nat) (file : String) : Finding :=
  Rule.referencesMissing.onLine number ("Referenced file not found: " ++ file)

/-- Findings about different missing files differ. -/
theorem missingFile_injective {number number' : Nat} {file file' : String}
    (h : missingFile number file = missingFile number' file') : file = file' := by
  have hm := congrArg (fun f => f.message.toList) h
  refine String.toList_injective ?_
  simpa [missingFile, Rule.onLine, String.toList_append] using hm

section

variable {c : Context} {r : Markdown.Reference}

/-- A reference names no file or names one: its target is external or has no file part, or it is neither. -/
theorem not_names_or_names (r : Markdown.Reference) :
    (isExternal r.target = true ∨ filePart r.target = "") ∨ isExternal r.target = false ∧ filePart r.target ≠ "" := by
  by_cases h : isExternal r.target = true ∨ filePart r.target = ""
  · exact .inl h
  · obtain ⟨hx, hf⟩ := not_or.1 h
    exact .inr ⟨Bool.eq_false_iff.2 hx, hf⟩

theorem checkReference_of_not_names (h : isExternal r.target = true ∨ filePart r.target = "") : checkReference c r = [] := by
  unfold checkReference
  rcases h with h | h <;> simp [h]

/-- What is found about a reference that names a file: whether it leads out of the package, and whether the file is missing. -/
theorem checkReference_of_names (hx : isExternal r.target = false) (hf : filePart r.target ≠ "") :
    checkReference c r =
      Finding.listIf (Path.escapes ⟨filePart r.target⟩) (outsidePackage (c.documentLine r.line) r.target)
        ++ Finding.listIf (!c.present (filePart r.target)) (missingFile (c.documentLine r.line) (filePart r.target)) := by
  unfold checkReference
  simp only [hx, Bool.false_or, beq_iff_eq, hf, if_false]
  rfl

/-- What is found about a reference is about the file that it names, which lies outside the package or is missing. -/
theorem mem_checkReference_iff {f : Finding} : f ∈ checkReference c r ↔
    isExternal r.target = false ∧ filePart r.target ≠ "" ∧
      (Path.escapes ⟨filePart r.target⟩ = true ∧ f = outsidePackage (c.documentLine r.line) r.target ∨
        c.present (filePart r.target) = false ∧ f = missingFile (c.documentLine r.line) (filePart r.target)) := by
  rcases not_names_or_names r with h | ⟨hx, hf⟩
  · rw [checkReference_of_not_names h]
    constructor
    · intro hf
      exact absurd hf List.not_mem_nil
    · rintro ⟨hx, hf, -⟩
      rcases h with h | h
      · exact absurd h (by simp [hx])
      · exact absurd h hf
  · rw [checkReference_of_names hx hf, List.mem_append, Finding.mem_listIf, Finding.mem_listIf, Bool.not_eq_true']
    exact ⟨fun hmem => ⟨hx, hf, hmem⟩, fun hmem => hmem.2.2⟩

/-- The check of one reference makes no error exactly when the reference names no file, or one that is present. -/
theorem errorFree_checkReference_iff : Finding.ErrorFree (checkReference c r) ↔
    (isExternal r.target = false → filePart r.target ≠ "" → c.present (filePart r.target) = true) := by
  rcases not_names_or_names r with h | ⟨hx, hf⟩
  · rw [checkReference_of_not_names h]
    simp only [Finding.errorFree_nil, true_iff]
    intro hx hf
    rcases h with h | h
    · exact absurd h (by simp [hx])
    · exact absurd h hf
  · rw [checkReference_of_names hx hf, Finding.errorFree_append_iff,
      and_iff_right (Finding.errorFree_listIf_of_warning rfl), Finding.errorFree_listIf_of_error rfl, Bool.not_eq_false']
    exact ⟨fun hp _ _ => hp, fun hp => hp hx hf⟩

end

theorem errorFree_referenceFindings_iff {c : Context} :
    Finding.ErrorFree (referenceFindings c) ↔ HasFiles c.body c.present := by
  rw [referenceFindings, Finding.errorFree_flatMap_iff]
  exact forall_congr' fun r => forall_congr' fun _ => errorFree_checkReference_iff

end SkillLint.Check
