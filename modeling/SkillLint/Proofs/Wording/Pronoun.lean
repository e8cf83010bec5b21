import SkillLint.Proofs.Text.Occurrence
import SkillLint.Proofs.Text.Trim
import SkillLint.Wording

/-!
# The pronouns of a text

A whole word of a text is a run of word characters that cannot be made longer. The recogniser of pronouns reads a whole word or
nothing (`readPronoun_eq_some_iff`), and no whole word begins inside another one; so the search finds the whole words that are
pronouns, all of them and in their order (`arePronouns_occurrences`).
-/

namespace SkillLint.Wording

variable {before word behind s : List Char}

/-! ## Whole words -/

/-- A run of word characters that has none before it and none behind it. -/
structure IsWholeWord (before word behind : List Char) : Prop where
  ne_nil : word ≠ []
  chars : ∀ c ∈ word, Text.isWord c = true
  starts : ∀ c ∈ before.getLast?, Text.isWord c = false
  ends : ∀ c ∈ behind.head?, Text.isWord c = false

/-- The run of word characters that a text starts with, and what is behind it. -/
theorem leadingWord_eq_iff (hword : ∀ c ∈ word, Text.isWord c = true) :
    Text.leadingWord (word ++ behind) = word ↔ ∀ c ∈ behind.head?, Text.isWord c = false := by
  rw [Text.leadingWord, List.takeWhile_append_of_pos hword]
  cases behind with
  | nil => simp
  | cons c behind => cases hc : Text.isWord c <;> simp [hc]

/-- A text is the run of word characters that it starts with, and a rest that does not start with a word character. -/
theorem exists_leadingWord_append (s : List Char) : ∃ behind, s = Text.leadingWord s ++ behind ∧
    (∀ c ∈ Text.leadingWord s, Text.isWord c = true) ∧ ∀ c ∈ behind.head?, Text.isWord c = false := by
  have hchars : ∀ c ∈ Text.leadingWord s, Text.isWord c = true := fun c hc => List.all_eq_true.1 List.all_takeWhile c hc
  have hs : s = Text.leadingWord s ++ s.dropWhile Text.isWord := List.takeWhile_append_dropWhile.symm
  exact ⟨s.dropWhile Text.isWord, hs, hchars, (leadingWord_eq_iff hchars).1 (congrArg Text.leadingWord hs.symm)⟩

/-! ## Pronouns -/

/-- The text behind a capital I makes it the start of an abbreviation: a slash, or a full stop and an alphabetic character. -/
inductive OpensAbbreviation : List Char → Prop
  | slash (rest : List Char) : OpensAbbreviation ('/' :: rest)
  | stop {c : Char} (rest : List Char) (hc : Text.isAlphabetic c = true) : OpensAbbreviation ('.' :: c :: rest)

/-- The words that are pronouns of the first or the second person, given the text behind them. -/
inductive IsPronoun (behind : List Char) : List Char → Prop
  /-- A capital I that starts no abbreviation. -/
  | capital (h : ¬OpensAbbreviation behind) : IsPronoun behind ['I']
  | us : IsPronoun behind ['u', 's']
  | capitalUs : IsPronoun behind ['U', 's']
  /-- The other pronouns, in any case. -/
  | anyCase {word : List Char} (h : word.map Text.foldCase ∈ pronouns) : IsPronoun behind word

/-- What opens an abbreviation is told by the first two characters. -/
theorem opensAbbreviation_iff : opensAbbreviation behind = true ↔ OpensAbbreviation behind := by
  unfold opensAbbreviation
  constructor
  · intro h
    split at h
    · exact .slash _
    · rename_i rest
      obtain ⟨c, hc, halpha⟩ := (Option.any_eq_true _ _).1 h
      obtain ⟨more, rfl⟩ := List.head?_eq_some_iff.1 hc
      exact .stop more halpha
    · exact absurd h Bool.false_ne_true
  · rintro (rest | ⟨rest, hc⟩)
    · rfl
    · exact hc

/-- A word that is a capital I is none of the other pronouns. -/
theorem isPronoun_capital_iff : IsPronoun behind ['I'] ↔ ¬OpensAbbreviation behind := by
  constructor
  · intro h
    cases h with
    | capital h => exact h
    | anyCase h => exact absurd h (by decide)
  · exact .capital

/-- The words that are read as pronouns are pronouns. -/
theorem isPronoun_iff : isPronoun word = true ∧ ¬(word = ['I'] ∧ opensAbbreviation behind = true) ↔
    IsPronoun behind word := by
  have hword : isPronoun word = true ↔
      word = ['I'] ∨ word = ['u', 's'] ∨ word = ['U', 's'] ∨ word.map Text.foldCase ∈ pronouns := by
    simp only [isPronoun, Text.isWordUpToCase, Bool.or_eq_true, beq_iff_eq, List.any_eq_true, exists_eq_right', or_assoc]
  rw [hword, opensAbbreviation_iff]
  by_cases hI : word = ['I']
  · subst hI
    rw [isPronoun_capital_iff]
    simp
  · constructor
    · rintro ⟨h | rfl | rfl | h, -⟩
      · exact absurd h hI
      · exact .us
      · exact .capitalUs
      · exact .anyCase h
    · intro h
      refine ⟨?_, fun h' => hI h'.1⟩
      cases h with
      | capital _ => exact .inl rfl
      | us => exact .inr (.inl rfl)
      | capitalUs => exact .inr (.inr (.inl rfl))
      | anyCase h => exact .inr (.inr (.inr h))

/-! ## Reading a pronoun -/

/-- A pronoun is read where a whole word of a text is one, if no word goes on there. -/
theorem readPronoun_eq_some_iff {previous : Option Char} {size : Nat} :
    readPronoun previous s = some (word, size) ↔ previous.any Text.isWord = false ∧ size = word.length ∧
      (∀ c ∈ word, Text.isWord c = true) ∧
        ∃ behind, s = word ++ behind ∧ (∀ c ∈ behind.head?, Text.isWord c = false) ∧ IsPronoun behind word := by
  have hdrop : ∀ {word behind : List Char}, word = ['I'] → (word ++ behind).drop 1 = behind := by
    rintro word behind rfl
    rfl
  constructor
  · intro h
    unfold readPronoun at h
    split at h
    · exact absurd h (by simp)
    · rename_i hprevious
      obtain ⟨behind, hs, hchars, hends⟩ := exists_leadingWord_append s
      simp only [Option.ite_none_left_eq_some, Bool.not_eq_true', Bool.not_eq_false, Bool.and_eq_true, beq_iff_eq,
        Option.some.injEq, Prod.mk.injEq] at h
      obtain ⟨hpronoun, habbreviation, rfl, rfl⟩ := h
      refine ⟨Bool.eq_false_iff.2 hprevious, rfl, hchars, behind, hs, hends, isPronoun_iff.1 ⟨hpronoun, ?_⟩⟩
      rintro ⟨hI, hopens⟩
      have hbehind : s.drop 1 = behind := (congrArg (List.drop 1) hs).trans (hdrop hI)
      exact habbreviation ⟨hI, hbehind ▸ hopens⟩
  · rintro ⟨hprevious, rfl, hchars, behind, rfl, hends, hpronoun⟩
    obtain ⟨hword, habbreviation⟩ := isPronoun_iff.2 hpronoun
    rw [readPronoun, if_neg (Bool.eq_false_iff.1 hprevious), (leadingWord_eq_iff hchars).2 hends]
    simp only [hword, Bool.not_true, Bool.false_eq_true, if_false]
    rw [if_neg]
    rw [Bool.and_eq_true, beq_iff_eq]
    rintro ⟨hI, hopens⟩
    rw [hdrop hI] at hopens
    exact habbreviation ⟨hI, hopens⟩

theorem IsPronoun.ne_nil (h : IsPronoun behind word) : word ≠ [] := by
  rintro rfl
  cases h with
  | anyCase h => exact absurd h (by decide)

/-- What is read at a place of a text is a whole word that is a pronoun. -/
theorem readsAt_readPronoun_iff {front rest : List Char} : Text.ReadsAt readPronoun none front rest word ↔
    ∃ behind, rest = word ++ behind ∧ IsWholeWord front word behind ∧ IsPronoun behind word := by
  simp only [Text.ReadsAt, readPronoun_eq_some_iff, Text.any_before_eq_false_iff]
  constructor
  · rintro ⟨-, -, hfront, -, hchars, behind, rfl, hends, hpronoun⟩
    exact ⟨behind, rfl, ⟨hpronoun.ne_nil, hchars, hfront, hends⟩, hpronoun⟩
  · rintro ⟨behind, rfl, ⟨hne, hchars, hfront, hends⟩, hpronoun⟩
    exact ⟨List.append_ne_nil_of_left_ne_nil hne behind, word.length, hfront, rfl, hchars, behind, rfl, hends, hpronoun⟩

/-- No pronoun begins inside another one, since a word character stands before each place inside a word. -/
theorem standApart_readPronoun : Text.StandApart readPronoun := by
  rintro previous front rest found size hne hread hlt other ⟨-, size', hread'⟩
  obtain ⟨-, rfl, hchars, behind, he, -, -⟩ := readPronoun_eq_some_iff.1 hread
  obtain ⟨hprevious, -⟩ := readPronoun_eq_some_iff.1 hread'
  obtain ⟨middle, rfl, -⟩ := Text.exists_of_append_eq_append he.symm (Nat.le_of_lt hlt)
  obtain ⟨init, c, rfl⟩ := (List.eq_nil_or_concat front).resolve_left hne
  rw [List.concat_eq_append, List.getLast?_concat, Option.some_or, Option.any_some, hchars c (by simp)] at hprevious
  exact Bool.false_ne_true hprevious.symm

/-- The pronouns of a text: its whole words that are pronouns, one behind the other. -/
structure ArePronouns (s : List Char) (found : List (Text.Occurrence (List Char))) : Prop where
  mem_iff : ∀ o, o ∈ found ↔ ∃ before behind, s = before ++ (o.found ++ behind) ∧ o.start = before.length ∧
    IsWholeWord before o.found behind ∧ IsPronoun behind o.found
  order : found.Pairwise fun o later => o.start + o.found.length ≤ later.start

/-- The search finds the pronouns of a text. -/
theorem arePronouns_occurrences (s : List Char) : ArePronouns s (Text.occurrences readPronoun s) where
  mem_iff o := by
    rw [Text.mem_occurrences_iff standApart_readPronoun]
    simp only [readsAt_readPronoun_iff]
    constructor
    · rintro ⟨before, rest, rfl, ⟨behind, rfl, hword, hpronoun⟩, hstart⟩
      exact ⟨before, behind, rfl, hstart, hword, hpronoun⟩
    · rintro ⟨before, behind, rfl, hstart, hword, hpronoun⟩
      exact ⟨before, _, rfl, ⟨behind, rfl, hword, hpronoun⟩, hstart⟩
  order := by
    refine Text.pairwise_occurrencesFrom (fun previous s found size h => ?_) none 0 0 s
    obtain ⟨-, rfl, -⟩ := readPronoun_eq_some_iff.1 h
    exact Nat.le_refl _

end SkillLint.Wording
