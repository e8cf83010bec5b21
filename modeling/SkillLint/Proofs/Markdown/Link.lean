import SkillLint.Markdown.Link
import SkillLint.Proofs.Distinct
import SkillLint.Proofs.Text.Search

/-!
# The links of a text

The links that the search finds do not depend on where the text stands nor on what is before it, and none begins in text
without an opening bracket. The references of a text are the first ones with their targets among those that its links make.
-/

namespace SkillLint.Markdown

/-- The links of a text, without their positions. -/
def links (s : List Char) : List Link :=
  (Text.occurrences readLink s).map fun o => o.found

/-- What is found does not depend on the text before nor on the position. -/
theorem map_found_occurrencesFrom (before before' : Option Char) (skip position position' : Nat) (s : List Char) :
    (Text.occurrencesFrom readLink before skip position s).map (fun o => o.found) =
      (Text.occurrencesFrom readLink before' skip position' s).map (fun o => o.found) := by
  induction s generalizing before before' skip position position' with
  | nil => simp [Text.occurrencesFrom]
  | cons c s ih =>
    cases skip with
    | succ skip =>
      rw [Text.occurrencesFrom, Text.occurrencesFrom]
      exact ih _ _ _ _ _
    | zero =>
      have hr : readLink before (c :: s) = readLink before' (c :: s) := rfl
      rw [Text.occurrencesFrom, Text.occurrencesFrom, hr]
      split
      · rw [List.map_cons, List.map_cons]
        exact congrArg _ (ih _ _ _ _ _)
      · exact ih _ _ _ _ _

theorem readLink_cons_of_ne {c : Char} (h : c ≠ '[') (before : Option Char) (rest : List Char) :
    readLink before (c :: rest) = none := by
  unfold readLink
  split
  · rename_i e
    exact absurd (List.cons.inj e).1 h
  · rfl

/-- The search passes text without an opening bracket. -/
theorem occurrencesFrom_gap {gap : List Char} (h : '[' ∉ gap) (before : Option Char) (position : Nat) (rest : List Char) :
    ∃ before', Text.occurrencesFrom readLink before 0 position (gap ++ rest) =
      Text.occurrencesFrom readLink before' 0 (position + gap.length) rest := by
  induction gap generalizing before position with
  | nil => exact ⟨before, rfl⟩
  | cons c gap ih =>
    obtain ⟨hc, hgap⟩ := not_or.1 fun e => h (List.mem_cons.2 e)
    obtain ⟨before', he⟩ := ih hgap (some c) (position + 1)
    refine ⟨before', ?_⟩
    rw [List.cons_append, Text.occurrencesFrom_of_no_match (readLink_cons_of_ne (Ne.symm hc) _ _), he, List.length_cons,
      Nat.add_assoc, Nat.add_comm 1]

theorem links_append {s : List Char} (h : '[' ∉ s) (rest : List Char) : links (s ++ rest) = links rest := by
  obtain ⟨before, hgap⟩ := occurrencesFrom_gap h none 0 rest
  rw [links, Text.occurrences, hgap]
  exact map_found_occurrencesFrom _ _ _ _ _ _

/-- Each reference is the first one with its target among those that the links of the text make. -/
theorem firstOfEach_references (text : String) :
    FirstOfEach Reference.target
      (((Text.occurrences readLink text.toList).map (referenceOf text.toList)).filter fun r => r.target != "")
      (references text) :=
  firstOfEach_eraseDupsBy Reference.target _

/-- The references of a text are those of the first links with their targets, unless the target is empty. -/
theorem mem_references_iff {text : String} {r : Reference} : r ∈ references text ↔ r.target ≠ "" ∧
    ∃ earlier o later, Text.occurrences readLink text.toList = earlier ++ o :: later ∧ referenceOf text.toList o = r ∧
      ∀ e ∈ earlier, (referenceOf text.toList e).target ≠ r.target := by
  rw [(firstOfEach_references text).mem_iff r]
  constructor
  · rintro ⟨kept, ⟨rest, hf⟩, hne⟩
    obtain ⟨front, back, hall, hfront, hback⟩ := List.filter_eq_append_iff.1 hf
    obtain ⟨skipped, more, rfl, hskipped, hr, -⟩ := List.filter_eq_cons_iff.1 hback
    rw [← List.append_assoc] at hall
    obtain ⟨earlier, others, hocc, hearlier, hothers⟩ := List.map_eq_append_iff.1 hall
    obtain ⟨o, later, rfl, rfl, -⟩ := List.map_eq_cons_iff.1 hothers
    refine ⟨bne_iff_ne.1 hr, earlier, o, later, hocc, rfl, fun e he heq => ?_⟩
    have hmem : referenceOf text.toList e ∈ front ++ skipped := hearlier ▸ List.mem_map_of_mem he
    have hempty : ((referenceOf text.toList e).target != "") = true := heq ▸ hr
    rcases List.mem_append.1 hmem with hmem | hmem
    · exact hne _ (hfront ▸ List.mem_filter.2 ⟨hmem, hempty⟩) heq
    · exact hskipped _ hmem hempty
  · rintro ⟨hr, earlier, o, later, hocc, rfl, hne⟩
    refine ⟨(earlier.map (referenceOf text.toList)).filter fun r => r.target != "",
      ⟨(later.map (referenceOf text.toList)).filter fun r => r.target != "", ?_⟩, fun y hy => ?_⟩
    · rw [hocc, List.map_append, List.map_cons, List.filter_append,
        List.filter_cons_of_pos (p := fun r : Reference => r.target != "") (bne_iff_ne.2 hr)]
    · obtain ⟨e, he, rfl⟩ := List.mem_map.1 (List.mem_filter.1 hy).1
      exact hne e he

theorem exists_link_of_mem_references {text : String} {r : Reference} (h : r ∈ references text) :
    ∃ link ∈ links text.toList, r.target = String.ofList (bareTarget link.target) := by
  obtain ⟨o, ho, rfl⟩ := List.mem_map.1 (List.mem_filter.1 ((firstOfEach_references text).sublist.subset h)).1
  exact ⟨o.found, List.mem_map.2 ⟨o, ho, rfl⟩, rfl⟩

end SkillLint.Markdown
