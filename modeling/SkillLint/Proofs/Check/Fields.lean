import SkillLint.Check.Fields
import SkillLint.Proofs.Report
import SkillLint.Proofs.Text.Trim

/-!
# Names and descriptions without errors

What a name and a description must be for their checks to make no error. The reserved words are searched for in whatever case;
in a name of valid characters no letter is a capital, so there it is enough to look for the words themselves.
-/

namespace SkillLint.Check

/-- What a name must be, with at most so many characters. -/
structure ValidName (name : List Char) (most : Nat) : Prop where
  not_empty : name ≠ []
  chars : ∀ c ∈ name, ('a' ≤ c ∧ c ≤ 'z') ∨ ('0' ≤ c ∧ c ≤ '9') ∨ c = '-'
  length_le : name.length ≤ most
  no_anthropic : ¬"anthropic".toList <:+: name
  no_claude : ¬"claude".toList <:+: name

/-- What a description must be, with at most so many characters. -/
structure ValidDescription (description : List Char) (most : Nat) : Prop where
  not_blank : ∃ c ∈ description, Text.isBlank c = false
  length_le : description.length ≤ most
  no_angle_brackets : '<' ∉ description ∧ '>' ∉ description

/-! ## Names -/

/-- The characters of names are lowercase letters, digits and hyphens. -/
theorem isNameChar_iff {c : Char} :
    isNameChar c = true ↔ ('a' ≤ c ∧ c ≤ 'z') ∨ ('0' ≤ c ∧ c ≤ '9') ∨ c = '-' := by
  have hlower : c.isLower = (decide ('a' ≤ c) && decide (c ≤ 'z')) := rfl
  have hdigit : c.isDigit = (decide ('0' ≤ c) && decide (c ≤ '9')) := rfl
  rw [isNameChar, hlower, hdigit]
  simp only [Bool.or_eq_true, Bool.and_eq_true, decide_eq_true_eq, beq_iff_eq, or_assoc]

/-- What holds of the name characters in ASCII holds of all name characters. -/
theorem forall_isNameChar {p : Char → Prop} (h : ∀ n < 128, isNameChar (Char.ofNat n) = true → p (Char.ofNat n)) {c : Char}
    (hc : isNameChar c = true) : p c := by
  have hz : ('z').val.toNat = 122 := rfl
  have h9 : ('9').val.toNat = 57 := rfl
  have hlt : c.val.toNat < 128 := by
    have hi := isNameChar_iff.1 hc
    simp only [Char.le_def, UInt32.le_iff_toNat_le] at hi
    rcases hi with hi | hi | rfl
    · omega
    · omega
    · decide
  have := h c.toNat hlt
  rw [Char.ofNat_toNat] at this
  exact this hc

theorem isNameChar_spec {c : Char} (h : isNameChar c = true) : c.toLower = c ∧ c ≠ '<' ∧ c ≠ '>' :=
  forall_isNameChar (p := fun c => c.toLower = c ∧ c ≠ '<' ∧ c ≠ '>') (by decide) h

theorem invalidChars_isEmpty_iff {name : List Char} :
    (invalidChars name).isEmpty = true ↔ ∀ c ∈ name, isNameChar c = true := by
  have hm : ∀ c, c ∈ invalidChars name ↔ c ∈ name ∧ isNameChar c = false := fun c => by
    rw [invalidChars, List.mem_eraseDups, List.mem_filter, Bool.not_eq_true']
  rw [List.isEmpty_iff, List.eq_nil_iff_forall_not_mem]
  refine forall_congr' fun c => ?_
  rw [hm, not_and, Bool.not_eq_false]

section Name

variable {name : List Char} (h : ∀ c ∈ name, isNameChar c = true)

include h in
theorem lowerAscii_of_isNameChar : Text.lowerAscii name = name := by
  rw [Text.lowerAscii, List.map_congr_left fun c hc => (isNameChar_spec (h c hc)).1]
  exact List.map_id' name

include h in
/-- A text of name characters has no angle brackets. -/
theorem hasAngleBrackets_of_isNameChar : hasAngleBrackets name = false := by
  rw [hasAngleBrackets, List.any_eq_false]
  intro c hc
  obtain ⟨-, hl, hg⟩ := isNameChar_spec (h c hc)
  simp [hl, hg]

include h in
/-- A name is searched for reserved words as it is. -/
theorem reservedWords_filter_eq_nil_iff :
    reservedWords.filter (fun word => Text.hasPart word.toList (Text.lowerAscii name)) = [] ↔
      ¬"anthropic".toList <:+: name ∧ ¬"claude".toList <:+: name := by
  rw [lowerAscii_of_isNameChar h, List.filter_eq_nil_iff]
  simp [reservedWords, Text.hasPart_iff]

end Name

/-- The check of a name makes no error exactly when the name is valid. -/
theorem errorFree_checkName_iff {name : String} {most : Nat} :
    Finding.ErrorFree (checkName name most) ↔ ValidName name.toList most := by
  unfold checkName
  split
  · rename_i he
    rw [Finding.errorFree_singleton_iff]
    exact ⟨fun h => absurd h (by decide), fun h => absurd (by rw [he]; rfl) h.not_empty⟩
  · rename_i hne
    have hnil : name.toList ≠ [] := fun e => hne (String.toList_eq_nil_iff.1 e)
    have hw : ∀ {condition : Bool} {message : String},
        Finding.ErrorFree (Finding.listIf condition (Rule.nameHyphenation.onField "name" message)) ∧
          Finding.ErrorFree (Finding.listIf condition (Rule.nameGeneric.onField "name" message)) :=
      ⟨Finding.errorFree_listIf_of_warning rfl, Finding.errorFree_listIf_of_warning rfl⟩
    simp only [Finding.errorFree_append_iff, hw, and_true]
    rw [Finding.errorFree_listIf_of_error rfl, Finding.errorFree_listIf_of_error rfl,
      Finding.errorFree_map_of_error fun _ => rfl, Finding.errorFree_listIf_of_error rfl, Bool.not_eq_false', invalidChars_isEmpty_iff, decide_eq_false_iff_not,
      Nat.not_lt, ← String.length_toList]
    constructor
    · rintro ⟨⟨⟨hchars, hlen⟩, hwords⟩, -⟩
      obtain ⟨ha, hc⟩ := (reservedWords_filter_eq_nil_iff hchars).1 hwords
      exact ⟨hnil, fun c hm => isNameChar_iff.1 (hchars c hm), hlen, ha, hc⟩
    · rintro ⟨-, hv, hlen, ha, hc⟩
      have hchars : ∀ c ∈ name.toList, isNameChar c = true := fun c hm => isNameChar_iff.2 (hv c hm)
      exact ⟨⟨⟨hchars, hlen⟩, (reservedWords_filter_eq_nil_iff hchars).2 ⟨ha, hc⟩⟩, hasAngleBrackets_of_isNameChar hchars⟩

/-! ## Descriptions -/

/-- A text has an angle bracket exactly when one of the two is in it. -/
theorem hasAngleBrackets_eq_false_iff {s : List Char} : hasAngleBrackets s = false ↔ '<' ∉ s ∧ '>' ∉ s := by
  simp only [hasAngleBrackets, List.any_eq_false, Bool.or_eq_true, beq_iff_eq, not_or]
  constructor
  · intro h
    exact ⟨fun hm => (h _ hm).1 rfl, fun hm => (h _ hm).2 rfl⟩
  · rintro ⟨hl, hg⟩ c hc
    exact ⟨fun e => hl (e ▸ hc), fun e => hg (e ▸ hc)⟩

/-- The check of a description makes no error exactly when the description is valid. -/
theorem errorFree_checkDescription_iff {description : String} {most : Nat} :
    Finding.ErrorFree (checkDescription description most) ↔ ValidDescription description.toList most := by
  unfold checkDescription
  split
  · rename_i hb
    rw [Finding.errorFree_singleton_iff]
    refine ⟨fun h => absurd h (by decide), fun h => ?_⟩
    obtain ⟨c, hc, hn⟩ := h.not_blank
    exact absurd (Text.isBlankText_iff.1 hb c hc) (by rw [hn]; decide)
  · rename_i hb
    have hblank : ∃ c ∈ description.toList, Text.isBlank c = false := by
      rw [Text.isBlankText_iff] at hb
      simpa using hb
    have hw : ∀ {condition : Bool} {message : String},
        Finding.ErrorFree (Finding.listIf condition (Rule.descriptionPerson.onField "description" message)) ∧
          Finding.ErrorFree (Finding.listIf condition (Rule.descriptionNoTrigger.onField "description" message)) :=
      ⟨Finding.errorFree_listIf_of_warning rfl, Finding.errorFree_listIf_of_warning rfl⟩
    simp only [Finding.errorFree_append_iff, hw, and_true]
    rw [Finding.errorFree_listIf_of_error rfl, Finding.errorFree_listIf_of_error rfl, decide_eq_false_iff_not, Nat.not_lt,
      ← String.length_toList, hasAngleBrackets_eq_false_iff]
    exact ⟨fun h => ⟨hblank, h.1, h.2⟩, fun h => ⟨h.length_le, h.no_angle_brackets⟩⟩

end SkillLint.Check
