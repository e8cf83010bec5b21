import Mathlib.Data.List.Basic
import SkillLint.Check.Body
import SkillLint.Proofs.Text.Occurrence
import SkillLint.Proofs.Wording.TimeAnchor

/-!
# The wording that is reported

An anchor stands at a place of a text when it is between the boundaries of words there. What is reported for a lead is decided by
the places at which anchors with that lead stand, whatever else looks like one: without such a place nothing is reported, and
otherwise the anchor at the leftmost of them (`firstAnchor?_eq_some_iff`).
-/

namespace SkillLint

namespace Wording

variable {lead : Lead} {s before phrase behind : List Char}

/-- An anchor with a lead stands in a text between the boundaries of words, with what is before it and what is behind it. -/
structure AnchorStands (lead : Lead) (s before phrase behind : List Char) : Prop where
  text : s = before ++ (phrase ++ behind)
  anchor : IsAnchor lead phrase
  starts : ∀ c ∈ before.getLast?, Text.isWord c = false
  ends : ∀ c ∈ behind.head?, Text.isWord c = false

/-- The anchor that stands leftmost in a text: any other one with the same lead stands further right. -/
structure AnchorStandsFirst (lead : Lead) (s before phrase behind : List Char) : Prop where
  stands : AnchorStands lead s before phrase behind
  leftmost : ∀ before' phrase' behind', AnchorStands lead s before' phrase' behind' →
    (before' = before ∧ phrase' = phrase ∧ behind' = behind) ∨ before.length < before'.length

/-- What is read at a place of a text is an anchor that stands there. -/
theorem readsAt_readAnchor_iff {rest : List Char} : Text.ReadsAt (readAnchor lead) none before rest phrase ↔
    ∃ behind, rest = phrase ++ behind ∧ AnchorStands lead (before ++ rest) before phrase behind := by
  have hends : ∀ {behind : List Char}, Text.startsWithWord behind = false ↔ ∀ c ∈ behind.head?, Text.isWord c = false :=
    Option.any_eq_false _ _
  simp only [Text.ReadsAt, readAnchor_eq_some_iff, Text.any_before_eq_false_iff, hends]
  constructor
  · rintro ⟨-, -, hbefore, behind, rfl, hanchor, hbehind, -⟩
    exact ⟨behind, rfl, ⟨rfl, hanchor, hbefore, hbehind⟩⟩
  · rintro ⟨behind, rfl, ⟨-, hanchor, hbefore, hbehind⟩⟩
    obtain ⟨c, more, rfl, -⟩ := hanchor.exists_cons
    exact ⟨List.cons_ne_nil c _, _, hbefore, behind, rfl, hanchor, hbehind, rfl⟩

/-- At a place of a text there stands one anchor with a lead at most. -/
theorem AnchorStands.unique {phrase' behind' : List Char} (h : AnchorStands lead s before phrase behind)
    (h' : AnchorStands lead s before phrase' behind') : phrase' = phrase ∧ behind' = behind := by
  obtain rfl := h.text
  have hrest := List.append_cancel_left h'.text
  obtain ⟨-, size, hread⟩ := readsAt_readAnchor_iff.2 ⟨behind, rfl, h⟩
  obtain ⟨-, size', hread'⟩ := readsAt_readAnchor_iff.2 ⟨behind', hrest, h'⟩
  rw [hread, Option.some.injEq, Prod.mk.injEq] at hread'
  obtain ⟨rfl, -⟩ := hread'
  exact ⟨rfl, (List.append_cancel_left hrest).symm⟩

/-- There is no first anchor when none stands in the text, and only then. -/
theorem firstAnchor?_eq_none_iff : firstAnchor? lead s = none ↔
    ¬∃ before phrase behind, AnchorStands lead s before phrase behind := by
  rw [firstAnchor?, List.head?_eq_none_iff, Text.occurrences, Text.occurrencesFrom_eq_nil_iff]
  refine not_congr ?_
  simp only [readsAt_readAnchor_iff]
  constructor
  · rintro ⟨before, rest, rfl, phrase, behind, -, hstands⟩
    exact ⟨before, phrase, behind, hstands⟩
  · rintro ⟨before, phrase, behind, hstands⟩
    exact ⟨before, _, hstands.text, phrase, behind, rfl, hstands.text ▸ hstands⟩

/-- The first anchor of a text is the one that stands leftmost. -/
theorem firstAnchor?_eq_some_iff {o : Text.Occurrence (List Char)} : firstAnchor? lead s = some o ↔
    ∃ before behind, AnchorStandsFirst lead s before o.found behind ∧ o.start = before.length := by
  rw [firstAnchor?, Text.head?_occurrences_eq_some_iff]
  simp only [readsAt_readAnchor_iff]
  constructor
  · rintro ⟨before, rest, rfl, ⟨behind, rfl, hstands⟩, hstart, hleft⟩
    refine ⟨before, behind, ⟨hstands, fun before' phrase' behind' hstands' => ?_⟩, hstart⟩
    rcases Nat.lt_trichotomy before'.length before.length with hlt | heq | hgt
    · exact absurd ⟨behind', rfl, hstands'.text ▸ hstands'⟩ (hleft before' _ hstands'.text hlt phrase')
    · obtain ⟨rfl, -⟩ := List.append_inj hstands'.text.symm heq
      exact .inl ⟨rfl, hstands.unique hstands'⟩
    · exact .inr hgt
  · rintro ⟨before, behind, ⟨hstands, hleft⟩, hstart⟩
    refine ⟨before, _, hstands.text, ⟨behind, rfl, hstands.text ▸ hstands⟩, hstart, ?_⟩
    rintro before' rest' he hlt phrase' ⟨behind', -, hstands'⟩
    rw [← he] at hstands'
    rcases hleft before' phrase' behind' hstands' with ⟨rfl, -⟩ | hgt
    · exact Nat.lt_irrefl _ hlt
    · omega

end Wording

namespace Check

open Wording (Lead AnchorStands AnchorStandsFirst)

/-- The warning about an anchor in the body, given the text before it. -/
def anchorWarning (c : Context) (before phrase : List Char) : Finding :=
  Rule.bodyTimeSensitive.onLine (c.documentLine (before.count '\n'))
    ("Time-sensitive wording '" ++ String.ofList phrase ++ "' will go stale; describe the current behavior instead")

/-- The warnings that a lead draws: one if an anchor with the lead stands in the body, about the leftmost of them, and none
otherwise. -/
structure AreDrawn (c : Context) (lead : Lead) (warnings : List Finding) : Prop where
  one : (∃ before phrase behind, AnchorStands lead c.body.toList before phrase behind) →
    ∃ before phrase behind, AnchorStandsFirst lead c.body.toList before phrase behind ∧
      warnings = [anchorWarning c before phrase]
  none : (¬∃ before phrase behind, AnchorStands lead c.body.toList before phrase behind) → warnings = []

/-- What is found about a lead are the warnings that it draws. -/
theorem areDrawn_anchorFinding? (c : Context) (lead : Lead) : AreDrawn c lead (anchorFinding? c lead).toList where
  one h := by
    cases hfirst : Wording.firstAnchor? lead c.body.toList with
    | none => exact absurd h (Wording.firstAnchor?_eq_none_iff.1 hfirst)
    | some o =>
      obtain ⟨before, behind, hstands, hstart⟩ := Wording.firstAnchor?_eq_some_iff.1 hfirst
      refine ⟨before, o.found, behind, hstands, ?_⟩
      rw [anchorFinding?, hfirst, Option.map_some, hstart, hstands.stands.text, Text.lineAt_append]
      rfl
  none h := by
    rw [anchorFinding?, Wording.firstAnchor?_eq_none_iff.2 h]
    rfl

/-- The findings about wording are the warnings that the leads draw, lead by lead: each lead draws one if an anchor with it stands
in the body, and none otherwise. The warning quotes the leftmost anchor with the lead, and has the line on which that starts. -/
theorem timeSensitiveFindings_leads (c : Context) : ∃ warnings : Lead → List Finding,
    timeSensitiveFindings c = warnings .before ++ warnings .after ++ warnings .asOf ++ warnings .until ∧
      ∀ lead, AreDrawn c lead (warnings lead) := by
  refine ⟨fun lead => (anchorFinding? c lead).toList, ?_, areDrawn_anchorFinding? c⟩
  rw [timeSensitiveFindings, List.filterMap_eq_flatMap_toList, Lead.all]
  simp only [List.flatMap_cons, List.flatMap_nil, List.append_nil, List.append_assoc]

/-- Five digits, a month without a year and a lead inside a word are no anchors, and an anchor can go over line ends. -/
example : timeSensitiveFindings ⟨⟨none, none, none⟩, 4,
      "Until 2027\nor before 20255, thereafter 2020, after May and AFTER\n may \n 2024\nor before 2025 and before 2026", {},
      fun _ => false⟩ =
    [Rule.bodyTimeSensitive.onLine 8
        "Time-sensitive wording 'before 2025' will go stale; describe the current behavior instead",
      Rule.bodyTimeSensitive.onLine 5
        "Time-sensitive wording 'AFTER\n may \n 2024' will go stale; describe the current behavior instead",
      Rule.bodyTimeSensitive.onLine 4
        "Time-sensitive wording 'Until 2027' will go stale; describe the current behavior instead"] := by
  decide +kernel

end Check

end SkillLint
