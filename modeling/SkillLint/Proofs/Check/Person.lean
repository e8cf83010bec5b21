import SkillLint.Check.Fields
import SkillLint.Proofs.Distinct
import SkillLint.Proofs.Report
import SkillLint.Proofs.Text.Trim
import SkillLint.Proofs.Wording.Pronoun

/-!
# What is reported about pronouns

A description with pronouns draws one warning, which lists how they are spelled: of the spellings that differ in the case of ASCII
letters only, the first. A description without pronouns draws none, whatever else is found about it.
-/

namespace SkillLint.Check

/-- The warning about the pronouns of a description, which lists spellings of them. -/
def personFinding (spellings : List (List Char)) : Finding :=
  Rule.descriptionPerson.onField "description"
    ("Description uses first/second person (" ++ ", ".intercalate (spellings.map String.ofList) ++ "); write in third person")

/-- What is found about the pronouns of a description. -/
def personFindings (description : String) (most : Nat) : List Finding :=
  (checkDescription description most).filter fun f => f.rule == Rule.descriptionPerson.code

/-- The spellings of the pronouns are the first ones of the words that differ by more than the case of ASCII letters. -/
theorem firstOfEach_pronounsIn (s : List Char) : FirstOfEach Text.lowerAscii
    ((Text.occurrences Wording.readPronoun s).map (·.found)) (Wording.pronounsIn s) := by
  have hsame : Text.sameIgnoringAsciiCase = fun s t => decide (Text.lowerAscii s = Text.lowerAscii t) := by
    funext s t
    rw [Bool.eq_iff_iff, Text.sameIgnoringAsciiCase, beq_iff_eq, decide_eq_true_iff]
  rw [Wording.pronounsIn, hsame]
  exact firstOfEach_eraseDupsBy Text.lowerAscii _

theorem pronounsIn_eq_nil_iff {s : List Char} :
    Wording.pronounsIn s = [] ↔ Text.occurrences Wording.readPronoun s = [] := by
  rw [← List.head?_eq_none_iff, (firstOfEach_pronounsIn s).head?_eq, List.head?_eq_none_iff, List.map_eq_nil_iff]

/-- Of the findings about a description that is not blank, those of the rule about pronouns are one or none. -/
theorem personFindings_eq {description : String} (h : Text.isBlankText description.toList = false) (most : Nat) :
    personFindings description most = Finding.listIf (!(Wording.pronounsIn description.toList).isEmpty)
      (personFinding (Wording.pronounsIn description.toList)) := by
  have hcode : ∀ (rule : Rule) (message : String),
      ((rule.onField "description" message).rule == Rule.descriptionPerson.code) = (rule.code == Rule.descriptionPerson.code) :=
    fun _ _ => rfl
  have hlong : (Rule.descriptionTooLong.code == Rule.descriptionPerson.code) = false := by decide
  have hbrackets : (Rule.descriptionAngleBrackets.code == Rule.descriptionPerson.code) = false := by decide
  have htrigger : (Rule.descriptionNoTrigger.code == Rule.descriptionPerson.code) = false := by decide
  have hnone : ∀ f, Finding.listIf false f = [] := fun _ => rfl
  rw [personFindings, checkDescription, if_neg (Bool.eq_false_iff.1 h)]
  simp only [List.filter_append, Finding.filter_listIf, hcode, hlong, hbrackets, htrigger, beq_self_eq_true, Bool.and_false,
    Bool.and_true, hnone, List.nil_append, List.append_nil]
  rfl

/-- Of a description that is not blank, the pronouns are the whole words that are pronouns. The rule about them draws no finding
when there are none; otherwise it draws one, and this lists the first of the spellings that differ by more than the case of ASCII
letters, in the order in which they stand in the description. -/
theorem checkDescription_person (description : String) (most : Nat) (h : ∃ c ∈ description.toList, Text.isBlank c = false) :
    ∃ found spellings, Wording.ArePronouns description.toList found ∧
      FirstOfEach Text.lowerAscii (found.map (·.found)) spellings ∧
      personFindings description most = if found = [] then [] else [personFinding spellings] := by
  have hblank : Text.isBlankText description.toList = false := by
    obtain ⟨c, hc, hn⟩ := h
    rw [Bool.eq_false_iff, Ne, Text.isBlankText_iff]
    intro hall
    rw [hall c hc] at hn
    exact Bool.noConfusion hn
  refine ⟨_, _, Wording.arePronouns_occurrences description.toList, firstOfEach_pronounsIn description.toList, ?_⟩
  rw [personFindings_eq hblank]
  by_cases hnil : Wording.pronounsIn description.toList = []
  · rw [if_pos (pronounsIn_eq_nil_iff.1 hnil), hnil]
    rfl
  · rw [if_neg fun he => hnil (pronounsIn_eq_nil_iff.2 he), List.isEmpty_eq_false_iff.2 hnil]
    rfl

/-- A description in which a pronoun is written in two ways, two abbreviations start with a capital I, and a country is named. -/
theorem checkDescription_person_mixed :
    let description := "Use when you or the US do I/O, i.e. I.e. YOU and us; I ask oUr own."
    (∃ c ∈ description.toList, Text.isBlank c = false) ∧
      ∃ found spellings, Wording.ArePronouns description.toList found ∧
        FirstOfEach Text.lowerAscii (found.map (·.found)) spellings ∧ ⟨9, "you".toList⟩ ∈ found ∧
        personFindings description 1024 = [personFinding spellings] := by
  intro description
  have hblank : ∃ c ∈ description.toList, Text.isBlank c = false := ⟨'U', by decide +kernel, by decide⟩
  obtain ⟨found, spellings, hfound, hfirst, hfindings⟩ := checkDescription_person description 1024 hblank
  have hyou : ⟨9, "you".toList⟩ ∈ found := by
    refine (hfound.mem_iff _).2 ⟨"Use when ".toList, " or the US do I/O, i.e. I.e. YOU and us; I ask oUr own.".toList, ?_⟩
    have hchars : "you".toList.all Text.isWord = true := by decide +kernel
    have hbefore : "Use when ".toList.getLast?.any Text.isWord = false := by decide +kernel
    have hbehind : " or the US do I/O, i.e. I.e. YOU and us; I ask oUr own.".toList.head?.any Text.isWord = false := by
      decide +kernel
    have hwhole : Wording.IsWholeWord "Use when ".toList "you".toList
        " or the US do I/O, i.e. I.e. YOU and us; I ask oUr own.".toList :=
      ⟨by decide, List.all_eq_true.1 hchars, (Option.any_eq_false _ _).1 hbefore, (Option.any_eq_false _ _).1 hbehind⟩
    exact ⟨by decide +kernel, rfl, hwhole, .anyCase (by decide)⟩
  rw [if_neg (List.ne_nil_of_mem hyou)] at hfindings
  exact ⟨hblank, found, spellings, hfound, hfirst, hyou, hfindings⟩

/-- The spellings that are listed for that description. -/
example : personFindings "Use when you or the US do I/O, i.e. I.e. YOU and us; I ask oUr own." 1024 =
    [personFinding ["you".toList, "us".toList, "I".toList, "oUr".toList]] := by
  decide +kernel

end SkillLint.Check
