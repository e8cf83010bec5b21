import SkillLint.Proofs.Check.References
import SkillLint.Proofs.Markdown.Link

/-!
# How often a missing file is reported

Links are told apart by their targets as they are written, and a file that is not there is reported once for each target that leads
to it: targets that differ in a fragment, in a query or in how a space is written are different ones. So the errors about a file are
those of the first links with each of the targets that lead to it (`missingErrors_eq`), and a file is named once if all links to it
are written alike, and only then (`referenceFindings_missing`).
-/

namespace SkillLint.Check

open Markdown (Reference)

/-- The references that the links of a text make, one for each link in order. -/
def linkReferences (body : String) : List Reference :=
  (Text.occurrences Markdown.readLink body.toList).map (Markdown.referenceOf body.toList)

/-- Whether a reference leads to a file: its target is not external, and the file is its file part. -/
def leadsTo (file : String) (r : Reference) : Bool :=
  !isExternal r.target && filePart r.target == file

/-- The references that the links to a file make, one for each link in order. -/
def linksTo (body file : String) : List Reference :=
  (linkReferences body).filter (leadsTo file)

/-- Whether a finding says that a file is missing. -/
def saysMissing (file : String) (f : Finding) : Bool :=
  f.rule == Rule.referencesMissing.code && f.message == "Referenced file not found: " ++ file

/-- The errors about a file that is missing. -/
def missingErrors (c : Context) (file : String) : List Finding :=
  (referenceFindings c).filter (saysMissing file)

variable {c : Context} {r : Reference} {file : String}

theorem leadsTo_iff : leadsTo file r = true ↔ isExternal r.target = false ∧ filePart r.target = file := by
  simp [leadsTo]

theorem target_ne_of_leadsTo (hne : file ≠ "") (h : leadsTo file r = true) : r.target ≠ "" := by
  intro e
  obtain ⟨-, rfl⟩ := leadsTo_iff.1 h
  exact hne (by rw [e]; rfl)

/-- The finding about a missing file says of that file that it is missing, and of no other. -/
theorem saysMissing_missingFile (number : Nat) (file other : String) :
    saysMissing file (missingFile number other) = decide (other = file) := by
  rw [Bool.eq_iff_iff, decide_eq_true_iff]
  simp [saysMissing, missingFile, Rule.onLine]

/-- The finding about a reference that leads out of the package says of no file that it is missing. -/
theorem saysMissing_outsidePackage (number : Nat) (file target : String) :
    saysMissing file (outsidePackage number target) = false := by
  have hcode : (Rule.referencesOutsidePackage.code == Rule.referencesMissing.code) = false := by decide
  simp only [saysMissing, outsidePackage, Rule.onLine, hcode, Bool.false_and]

/-- What is found about one reference says of a file that it is missing when the reference leads to it and it is not there. -/
theorem filter_checkReference (hne : file ≠ "") : (checkReference c r).filter (saysMissing file) =
    Finding.listIf (leadsTo file r && !c.present file) (missingFile (c.documentLine r.line) file) := by
  rcases not_names_or_names r with h | ⟨hx, hf⟩
  · have hleads : leadsTo file r = false := by
      rw [Bool.eq_false_iff, Ne, leadsTo_iff]
      rintro ⟨hx, rfl⟩
      rcases h with h | h
      · exact absurd h (by simp [hx])
      · exact hne h
    rw [checkReference_of_not_names h, hleads]
    rfl
  · rw [checkReference_of_names hx hf, List.filter_append, Finding.filter_listIf, Finding.filter_listIf,
      saysMissing_outsidePackage, saysMissing_missingFile, Bool.and_false]
    by_cases hfile : filePart r.target = file
    · rw [leadsTo_iff.2 ⟨hx, hfile⟩, hfile, decide_eq_true rfl, Bool.and_true, Bool.true_and]
      rfl
    · have hleads : leadsTo file r = false := Bool.eq_false_iff.2 fun h => hfile (leadsTo_iff.1 h).2
      rw [hleads, decide_eq_false hfile, Bool.and_false]
      rfl

/-- Nothing says of a file that it is missing when it is there. -/
theorem missingErrors_of_present (h : file = "" ∨ c.present file = true) : missingErrors c file = [] := by
  rw [missingErrors, List.filter_eq_nil_iff]
  intro f hf
  obtain ⟨r, -, hr⟩ := List.mem_flatMap.1 hf
  obtain ⟨-, hne, ⟨-, rfl⟩ | ⟨hmissing, rfl⟩⟩ := mem_checkReference_iff.1 hr
  · rw [saysMissing_outsidePackage]
    exact Bool.false_ne_true
  · rw [saysMissing_missingFile, decide_eq_true_iff]
    rintro rfl
    rcases h with h | h
    · exact hne h
    · exact absurd h (by simp [hmissing])

/-- The errors about a file that is not there are those of the references that lead to it. -/
theorem missingErrors_eq (hne : file ≠ "") (hmissing : c.present file = false) : missingErrors c file =
    ((Markdown.references c.body).filter (leadsTo file)).map fun r => missingFile (c.documentLine r.line) file := by
  rw [missingErrors, referenceFindings, List.filter_flatMap]
  induction Markdown.references c.body with
  | nil => rfl
  | cons r rs ih =>
    rw [List.flatMap_cons, ih, filter_checkReference hne, hmissing, Bool.not_false, Bool.and_true]
    cases h : leadsTo file r with
    | false => rw [List.filter_cons_of_neg (by simp [h])]; rfl
    | true => rw [List.filter_cons_of_pos h]; rfl

/-- Of the references that the links to a file make, the first ones with their targets are kept. -/
theorem firstOfEach_linksTo (body : String) (hne : file ≠ "") :
    FirstOfEach Reference.target (linksTo body file) ((Markdown.references body).filter (leadsTo file)) := by
  have hkept : linksTo body file = ((linkReferences body).filter fun r => r.target != "").filter (leadsTo file) := by
    rw [linksTo, List.filter_filter]
    refine List.filter_congr fun r _ => ?_
    cases h : leadsTo file r with
    | false => rfl
    | true => simpa using target_ne_of_leadsTo hne h
  rw [hkept]
  exact (Markdown.firstOfEach_references body).filter fun r s h => by rw [leadsTo, leadsTo, h]

/-- Every error about a missing file names one, and there is none about a file that is there. The errors about a file that is not
there are those of the first links with each target that leads to it, so the first of them is at the line of the first link to
the file, and there are as many as there are targets. No file is named twice if and only if all links to the same missing file
have the same target. -/
theorem referenceFindings_missing (c : Context) :
    (∀ f ∈ referenceFindings c, f.rule = Rule.referencesMissing.code → ∃! file, f ∈ missingErrors c file) ∧
    (∀ file, file = "" ∨ c.present file = true → missingErrors c file = []) ∧
    (∀ file, file ≠ "" → c.present file = false →
      (∃ firsts, FirstOfEach Reference.target (linksTo c.body file) firsts ∧
        missingErrors c file = firsts.map fun r => missingFile (c.documentLine r.line) file) ∧
      (missingErrors c file).head? = (linksTo c.body file).head?.map (fun r => missingFile (c.documentLine r.line) file) ∧
      (missingErrors c file).length = ((linksTo c.body file).map Reference.target).toFinset.card) ∧
    ((∀ file, (missingErrors c file).length ≤ 1) ↔ ∀ file, file ≠ "" → c.present file = false →
      ∀ r ∈ linksTo c.body file, ∀ s ∈ linksTo c.body file, r.target = s.target) := by
  have hlength : ∀ file, file ≠ "" → c.present file = false →
      (missingErrors c file).length = ((linksTo c.body file).map Reference.target).toFinset.card := fun file hne hmissing => by
    rw [missingErrors_eq hne hmissing, List.length_map, (firstOfEach_linksTo c.body hne).length_eq]
  refine ⟨fun f hf hrule => ?_, fun file => missingErrors_of_present, fun file hne hmissing => ⟨?_, ?_, hlength file hne hmissing⟩, ?_⟩
  · obtain ⟨r, -, hr⟩ := List.mem_flatMap.1 hf
    obtain ⟨-, -, ⟨-, rfl⟩ | ⟨-, rfl⟩⟩ := mem_checkReference_iff.1 hr
    · have hcode : Rule.referencesOutsidePackage.code = Rule.referencesMissing.code := hrule
      exact absurd hcode (by decide)
    · refine ⟨filePart r.target, List.mem_filter.2 ⟨hf, by rw [saysMissing_missingFile, decide_eq_true rfl]⟩, fun other hother => ?_⟩
      have hsays := (List.mem_filter.1 hother).2
      rw [saysMissing_missingFile, decide_eq_true_iff] at hsays
      exact hsays.symm
  · exact ⟨_, firstOfEach_linksTo c.body hne, missingErrors_eq hne hmissing⟩
  · rw [missingErrors_eq hne hmissing, List.head?_map, (firstOfEach_linksTo c.body hne).head?_eq]
  · have hone : ∀ file, file ≠ "" → c.present file = false → ((missingErrors c file).length ≤ 1 ↔
        ∀ r ∈ linksTo c.body file, ∀ s ∈ linksTo c.body file, r.target = s.target) := fun file hne hmissing => by
      rw [hlength file hne hmissing, Finset.card_le_one]
      simp only [List.mem_toFinset, List.forall_mem_map]
    constructor
    · exact fun h file hne hmissing => (hone file hne hmissing).1 (h file)
    · intro h file
      by_cases hthere : file = "" ∨ c.present file = true
      · rw [missingErrors_of_present hthere]
        exact Nat.zero_le 1
      · obtain ⟨hne, hpresent⟩ := not_or.1 hthere
        have hmissing := Bool.eq_false_iff.2 hpresent
        exact (hone file hne hmissing).2 (h file hne hmissing)

/-- A file that three links lead to under two targets, and one that two links lead to under the same target: the first is named on the
lines of the first link with each target, and the second on the line of its first link alone. -/
theorem referenceFindings_missing_fragments :
    let c : Context := ⟨⟨none, none, none⟩, 4, "[a](x.md#a) or [b](x.md)\n[y](my%20y.md)\n[c](x.md#a) and [y](my%20y.md)",
      {}, fun _ => false⟩
    "x.md" ≠ "" ∧ c.present "x.md" = false ∧ (missingErrors c "x.md").length = 2 ∧
      "my y.md" ≠ "" ∧ c.present "my y.md" = false ∧ (missingErrors c "my y.md").head? = some (missingFile 5 "my y.md") ∧
      (missingErrors c "my y.md").length = 1 := by
  intro c
  obtain ⟨-, -, hmissing, -⟩ := referenceFindings_missing c
  obtain ⟨-, -, hcount⟩ := hmissing "x.md" (by decide) rfl
  obtain ⟨-, hfirst, hcount'⟩ := hmissing "my y.md" (by decide) rfl
  have hlinks : (linksTo c.body "x.md").map Reference.target = ["x.md#a", "x.md", "x.md#a"] := by decide +kernel
  have hlinks' : linksTo c.body "my y.md" = [⟨"my%20y.md", 1⟩, ⟨"my%20y.md", 2⟩] := by decide +kernel
  rw [hlinks] at hcount
  rw [hlinks'] at hfirst hcount'
  exact ⟨by decide, rfl, hcount.trans (by decide), by decide, rfl, hfirst, hcount'.trans (by decide)⟩

/-- Two links to one missing file, one of them to a place in it: the file is named twice. -/
theorem referenceFindings_twice :
    let c : Context := ⟨⟨none, none, none⟩, 1, "[a](x.md#a)\n[b](x.md)", {}, fun _ => false⟩
    referenceFindings c = [missingFile 1 "x.md", missingFile 2 "x.md"] := by
  decide +kernel

end SkillLint.Check
