import SkillLint.Proofs.Text.Continued
import SkillLint.Proofs.Text.Search
import SkillLint.Proofs.Text.Trim
import SkillLint.Wording

/-!
# How time anchors are written

A time anchor as a grammar: the words of a lead and perhaps a month, each with blanks behind it, and a year of four digits. The
recogniser reads such a text wherever it stands between the boundaries of words, and nothing else (`readAnchor_eq_some_iff`).
None of the words and blanks has a digit, so an anchor ends where its first four digits end, and what is put behind a text does
not change the anchors in it (`occurrences_readAnchor_prefix`).
-/

namespace SkillLint.Wording

/-! ## Letters, blanks and digits -/

/-- A word of the vocabulary: lowercase letters, at least one. -/
def IsVocabulary (word : List Char) : Prop :=
  word ≠ [] ∧ word.all Char.isLower = true

instance (word : List Char) : Decidable (IsVocabulary word) :=
  inferInstanceAs (Decidable (word ≠ [] ∧ word.all Char.isLower = true))

theorem isVocabulary_of_mem_words (lead : Lead) : ∀ word ∈ lead.words, IsVocabulary word := by
  cases lead <;> decide

theorem isVocabulary_of_mem_months : ∀ month ∈ months, IsVocabulary month := by
  decide

/-- What folds to a lowercase letter is a letter, or one of the two characters outside ASCII that fold to one. -/
theorem isAlpha_of_isLower_foldCase {c : Char} (h : (Text.foldCase c).isLower = true) :
    c = '\u017F' ∨ c = '\u212A' ∨ c.isAlpha = true := by
  unfold Text.foldCase at h
  split at h
  · exact .inl ‹_›
  · split at h
    · exact .inr (.inl ‹_›)
    · have halpha : c.isAlpha = (c.isUpper || c.isLower) := rfl
      refine .inr (.inr ?_)
      unfold Char.toLower at h
      split at h
      · rename_i hup
        have hupper : c.isUpper = true := decide_eq_true hup
        rw [halpha, hupper, Bool.true_or]
      · rw [halpha, h, Bool.or_true]

theorem isBlank_of_isAlpha {c : Char} (h : c.isAlpha = true) : Text.isBlank c = false := by
  have hn := Text.toNat_of_isAlpha h
  simp only [Text.isBlank, Bool.or_eq_false_iff, Bool.and_eq_false_iff, decide_eq_false_iff_not, beq_eq_false_iff_ne]
  omega

/-- A letter is no digit. -/
theorem isDecimalDigit_of_isAlpha {c : Char} (h : c.isAlpha = true) : Text.isDecimalDigit c = false := by
  have hn := Text.toNat_of_isAlpha h
  unfold Text.isDecimalDigit Text.CharSet.holds Text.decimalDigitSet
  rw [Text.CharSet.holdsFrom_of_le _ (by omega), Text.CharSet.holdsFrom_of_le _ (by omega),
    Text.CharSet.holdsFrom_of_lt _ (by omega)]
  rfl

/-- A blank is no digit. -/
theorem isDecimalDigit_of_isBlank {c : Char} (h : Text.isBlank c = true) : Text.isDecimalDigit c = false := by
  have hall : ∀ n ∈ [0x9, 0xA, 0xB, 0xC, 0xD, 0x20, 0x85, 0xA0, 0x1680, 0x2000, 0x2001, 0x2002, 0x2003, 0x2004, 0x2005,
      0x2006, 0x2007, 0x2008, 0x2009, 0x200A, 0x2028, 0x2029, 0x202F, 0x205F, 0x3000],
      Text.CharSet.holdsFrom false Text.decimalDigitSet n = false := by
    decide
  refine hall c.toNat ?_
  simp only [Text.isBlank, Bool.or_eq_true, Bool.and_eq_true, decide_eq_true_eq, beq_iff_eq] at h
  simp only [List.mem_cons, List.not_mem_nil, or_false]
  omega

/-- What is written of a word of the vocabulary, in whatever case, has no blanks and no digits. -/
theorem IsVocabulary.plain {word written : List Char} (h : IsVocabulary word) (hw : written.map Text.foldCase = word) :
    ∀ c ∈ written, Text.isBlank c = false ∧ Text.isWordDigit c = false := by
  intro c hc
  have hlower : (Text.foldCase c).isLower = true := List.all_eq_true.1 h.2 _ (hw ▸ List.mem_map_of_mem hc)
  rcases isAlpha_of_isLower_foldCase hlower with rfl | rfl | halpha
  · decide
  · decide
  · exact ⟨isBlank_of_isAlpha halpha, by rw [Text.isWordDigit, isDecimalDigit_of_isAlpha halpha, Bool.false_and]⟩

/-! ## The grammar -/

/-- Blanks, at least one. -/
def IsGap (gap : List Char) : Prop :=
  gap ≠ [] ∧ ∀ c ∈ gap, Text.isBlank c = true

/-- Words, written in whatever case, each with blanks behind it. -/
inductive IsWords : List (List Char) → List Char → Prop
  | nil : IsWords [] []
  | cons {word : List Char} {more : List (List Char)} {written gap rest : List Char}
    (hw : written.map Text.foldCase = word) (hg : IsGap gap) (h : IsWords more rest) :
    IsWords (word :: more) (written ++ (gap ++ rest))

/-- A year: four digits. -/
def IsYear (year : List Char) : Prop :=
  year.length = 4 ∧ ∀ c ∈ year, Text.isWordDigit c = true

/-- What may stand between a lead and the year: nothing or a month. -/
def IsMonth (month : List (List Char)) : Prop :=
  month = [] ∨ ∃ m ∈ months, month = [m]

/-- A time anchor: the words of its lead, perhaps a month, and a year. -/
def IsAnchor (lead : Lead) (phrase : List Char) : Prop :=
  ∃ month front year, IsMonth month ∧ IsWords (lead.words ++ month) front ∧ IsYear year ∧ phrase = front ++ year

theorem IsWords.append {words more : List (List Char)} {front rest : List Char} (h : IsWords words front)
    (h' : IsWords more rest) : IsWords (words ++ more) (front ++ rest) := by
  induction h with
  | nil => exact h'
  | @cons word words written gap front hw hg _ ih =>
    have happend : (written ++ (gap ++ front)) ++ rest = written ++ (gap ++ (front ++ rest)) := by
      simp only [List.append_assoc]
    rw [happend]
    exact .cons hw hg ih

theorem IsWords.exists_of_append {words more : List (List Char)} {s : List Char} (h : IsWords (words ++ more) s) :
    ∃ front rest, s = front ++ rest ∧ IsWords words front ∧ IsWords more rest := by
  induction words generalizing s with
  | nil => exact ⟨[], s, rfl, .nil, h⟩
  | cons word words ih =>
    cases h with
    | @cons _ _ written gap _ hw hg h =>
      obtain ⟨front, rest, rfl, hfront, hrest⟩ := ih h
      exact ⟨written ++ (gap ++ front), rest, by simp only [List.append_assoc], .cons hw hg hfront, hrest⟩

/-- Written words of the vocabulary have no digits. -/
theorem IsWords.no_digit {words : List (List Char)} {front : List Char} (h : IsWords words front)
    (hv : ∀ word ∈ words, IsVocabulary word) : ∀ c ∈ front, Text.isWordDigit c = false := by
  induction h with
  | nil => simp
  | @cons word more written gap rest hw hg _ ih =>
    obtain ⟨hword, hmore⟩ := List.forall_mem_cons.1 hv
    intro c hc
    rcases List.mem_append.1 hc with hc | hc
    · exact (hword.plain hw c hc).2
    · rcases List.mem_append.1 hc with hc | hc
      · rw [Text.isWordDigit, isDecimalDigit_of_isBlank (hg.2 c hc), Bool.false_and]
      · exact ih hmore c hc

/-- Written words start with a letter, or there are none. -/
theorem IsWords.head_not_blank {words : List (List Char)} {front : List Char} (h : IsWords words front)
    (hv : ∀ word ∈ words, IsVocabulary word) {rest : List Char} (hrest : ∀ c ∈ rest.head?, Text.isBlank c = false) :
    ∀ c ∈ (front ++ rest).head?, Text.isBlank c = false := by
  cases h with
  | nil => exact hrest
  | @cons _ _ written _ _ hw _ _ =>
    obtain ⟨hword, -⟩ := List.forall_mem_cons.1 hv
    cases written with
    | nil => exact absurd hw.symm hword.1
    | cons d written =>
      intro c hc
      obtain rfl := Option.some.inj hc
      exact (hword.plain hw d List.mem_cons_self).1

/-- A year starts with a digit, which is not blank. -/
theorem IsYear.exists_cons {year : List Char} (h : IsYear year) :
    ∃ d rest, year = d :: rest ∧ Text.isWordDigit d = true ∧ Text.isBlank d = false := by
  obtain ⟨hlength, hdigits⟩ := h
  cases year with
  | nil => exact absurd hlength (by decide)
  | cons d rest =>
    have hd := hdigits d List.mem_cons_self
    refine ⟨d, rest, rfl, hd, Bool.eq_false_iff.2 fun hb => ?_⟩
    rw [Text.isWordDigit, isDecimalDigit_of_isBlank hb, Bool.false_and] at hd
    exact absurd hd Bool.false_ne_true

/-- The first four digits of a text can be cut off in one way. -/
theorem IsYear.append_inj {front front' year year' rest rest' : List Char} (hy : IsYear year) (hy' : IsYear year')
    (hf : ∀ c ∈ front, Text.isWordDigit c = false) (hf' : ∀ c ∈ front', Text.isWordDigit c = false)
    (h : front ++ (year ++ rest) = front' ++ (year' ++ rest')) : front = front' ∧ year = year' ∧ rest = rest' := by
  have htake : ∀ {front year : List Char} (rest : List Char), IsYear year → (∀ c ∈ front, Text.isWordDigit c = false) →
      (front ++ (year ++ rest)).takeWhile (fun c => !Text.isWordDigit c) = front := by
    intro front year rest hy hf
    obtain ⟨d, more, rfl, hd, -⟩ := hy.exists_cons
    exact Text.takeWhile_append_cons (fun c hc => by rw [hf c hc]; rfl) (by rw [hd]; rfl)
  obtain rfl : front = front' := by rw [← htake rest hy hf, h, htake rest' hy' hf']
  obtain ⟨hyear, hrest⟩ := List.append_inj (List.append_cancel_left h) (hy.1.trans hy'.1.symm)
  exact ⟨rfl, hyear, hrest⟩

/-! ## Reading the parts -/

/-- Blanks are dropped up to the first character that is not blank. -/
theorem dropBlanks?_eq_some_iff {s rest : List Char} : dropBlanks? s = some rest ↔
    ∃ gap, IsGap gap ∧ s = gap ++ rest ∧ ∀ c ∈ rest.head?, Text.isBlank c = false := by
  constructor
  · intro h
    cases s with
    | nil => exact absurd h (by simp [dropBlanks?])
    | cons c s =>
      obtain ⟨hc, he⟩ := Option.ite_none_right_eq_some.1 h
      obtain rfl := Option.some.inj he
      refine ⟨c :: s.takeWhile Text.isBlank, ⟨List.cons_ne_nil _ _, List.forall_mem_cons.2 ⟨hc, fun d hd => ?_⟩⟩, ?_,
        Text.head_trimStart_not_blank s⟩
      · exact List.all_eq_true.1 List.all_takeWhile d hd
      · rw [List.cons_append, List.takeWhile_append_dropWhile]
  · rintro ⟨gap, ⟨hne, hblank⟩, rfl, hrest⟩
    obtain ⟨c, gap, rfl⟩ := List.exists_cons_of_ne_nil hne
    obtain ⟨hc, hgap⟩ := List.forall_mem_cons.1 hblank
    have hdrop : (gap ++ rest).dropWhile Text.isBlank = rest := by
      cases rest with
      | nil => rw [List.dropWhile_append_of_pos hgap, List.dropWhile_nil]
      | cons d rest => exact Text.dropWhile_append_cons hgap (hrest d rfl)
    rw [List.cons_append, dropBlanks?, if_pos hc, hdrop]

/-- What is dropped as words are such words. -/
theorem exists_of_dropWords? {words : List (List Char)} {s rest : List Char} (h : dropWords? words s = some rest) :
    ∃ front, s = front ++ rest ∧ IsWords words front := by
  induction words generalizing s with
  | nil => exact ⟨[], Option.some.inj h, .nil⟩
  | cons word more ih =>
    obtain ⟨behind, hbehind, hmore⟩ := Option.bind_eq_some_iff.1 h
    obtain ⟨next, hnext, hblanks⟩ := Option.bind_eq_some_iff.1 hbehind
    obtain ⟨written, rfl, hw⟩ := Text.dropWord?_eq_some_iff.1 hnext
    obtain ⟨gap, hg, rfl, -⟩ := dropBlanks?_eq_some_iff.1 hblanks
    obtain ⟨front, rfl, hfront⟩ := ih hmore
    exact ⟨written ++ (gap ++ front), by simp only [List.append_assoc], .cons hw hg hfront⟩

/-- Words of the vocabulary are dropped before a text that does not start with a blank. -/
theorem dropWords?_append {words : List (List Char)} {front rest : List Char} (h : IsWords words front)
    (hv : ∀ word ∈ words, IsVocabulary word) (hrest : ∀ c ∈ rest.head?, Text.isBlank c = false) :
    dropWords? words (front ++ rest) = some rest := by
  induction h with
  | nil => rfl
  | @cons word more written gap front hw hg h ih =>
    obtain ⟨-, hmore⟩ := List.forall_mem_cons.1 hv
    have hword : Text.dropWord? word (written ++ (gap ++ (front ++ rest))) = some (gap ++ (front ++ rest)) :=
      Text.dropWord?_eq_some_iff.2 ⟨written, rfl, hw⟩
    have hblanks : dropBlanks? (gap ++ (front ++ rest)) = some (front ++ rest) :=
      dropBlanks?_eq_some_iff.2 ⟨gap, hg, rfl, h.head_not_blank hmore hrest⟩
    rw [List.append_assoc, List.append_assoc, dropWords?, hword, Option.bind_some, hblanks, Option.bind_some, ih hmore]

/-- Four digits are dropped as a year when no word character stands behind them. -/
theorem dropYear?_eq_some_iff {s rest : List Char} : dropYear? s = some rest ↔
    ∃ year, IsYear year ∧ s = year ++ rest ∧ Text.startsWithWord rest = false := by
  constructor
  · intro h
    obtain ⟨⟨hlength, hdigits, hword⟩, he⟩ := Option.ite_none_right_eq_some.1 h
    obtain rfl := Option.some.inj he
    exact ⟨s.take 4, ⟨hlength, List.all_eq_true.1 hdigits⟩, (List.take_append_drop 4 s).symm, by simpa using hword⟩
  · rintro ⟨year, ⟨hlength, hdigits⟩, rfl, hword⟩
    have htake : (year ++ rest).take 4 = year := by rw [← hlength, List.take_left]
    have hdrop : (year ++ rest).drop 4 = rest := by rw [← hlength, List.drop_left]
    rw [dropYear?, htake, hdrop]
    exact if_pos ⟨hlength, List.all_eq_true.2 hdigits, by rw [hword]; rfl⟩

theorem IsMonth.vocabulary {month : List (List Char)} (h : IsMonth month) : ∀ word ∈ month, IsVocabulary word := by
  rcases h with rfl | ⟨m, hm, rfl⟩
  · simp
  · simpa using isVocabulary_of_mem_months m hm

/-- A date is dropped exactly when it is there: perhaps a month, and a year with no word character behind it. -/
theorem dropDate?_eq_some_iff {s rest : List Char} : dropDate? s = some rest ↔
    ∃ month front year, IsMonth month ∧ IsWords month front ∧ IsYear year ∧ s = front ++ (year ++ rest) ∧
      Text.startsWithWord rest = false := by
  have hsound : ∀ {rest : List Char}, dropDate? s = some rest →
      ∃ month front year, IsMonth month ∧ IsWords month front ∧ IsYear year ∧ s = front ++ (year ++ rest) ∧
        Text.startsWithWord rest = false := by
    intro rest h
    unfold dropDate? at h
    split at h
    · rename_i hyear
      obtain rfl := Option.some.inj h
      obtain ⟨year, hy, rfl, hword⟩ := dropYear?_eq_some_iff.1 hyear
      exact ⟨[], [], year, .inl rfl, .nil, hy, rfl, hword⟩
    · obtain ⟨m, hm, hread⟩ := List.exists_of_findSome?_eq_some h
      obtain ⟨behind, hbehind, hyear⟩ := Option.bind_eq_some_iff.1 hread
      obtain ⟨next, hnext, hblanks⟩ := Option.bind_eq_some_iff.1 hbehind
      obtain ⟨written, rfl, hw⟩ := Text.dropWord?_eq_some_iff.1 hnext
      obtain ⟨gap, hg, rfl, -⟩ := dropBlanks?_eq_some_iff.1 hblanks
      obtain ⟨year, hy, rfl, hword⟩ := dropYear?_eq_some_iff.1 hyear
      exact ⟨[m], written ++ (gap ++ []), year, .inr ⟨m, hm, rfl⟩, .cons hw hg .nil, hy, by simp, hword⟩
  refine ⟨hsound, ?_⟩
  rintro ⟨month, front, year, hmonth, hfront, hy, rfl, hword⟩
  -- Something is dropped, and since the first four digits end it, it is the date.
  have hsome : ∃ rest', dropDate? (front ++ (year ++ rest)) = some rest' := by
    unfold dropDate?
    split
    · rename_i found _
      exact ⟨found, rfl⟩
    · rcases hmonth with rfl | ⟨m, hm, rfl⟩
      · cases hfront
        rename_i hnone
        rw [List.nil_append, dropYear?_eq_some_iff.2 ⟨year, hy, rfl, hword⟩] at hnone
        exact absurd hnone (by simp)
      · cases hfront with
        | @cons _ _ written gap _ hw hg hnil =>
          cases hnil
          obtain ⟨d, more, hd, -, hblank⟩ := hy.exists_cons
          rw [List.append_nil, List.append_assoc, ← Option.isSome_iff_exists, List.findSome?_isSome_iff]
          refine ⟨m, hm, ?_⟩
          rw [Text.dropWord?_eq_some_iff.2 ⟨written, rfl, hw⟩, Option.bind_some,
            dropBlanks?_eq_some_iff.2 ⟨gap, hg, rfl, by rw [hd]; simpa using hblank⟩, Option.bind_some,
            dropYear?_eq_some_iff.2 ⟨year, hy, rfl, hword⟩]
          rfl
  obtain ⟨rest', hrest'⟩ := hsome
  obtain ⟨month', front', year', hmonth', hfront', hy', hs, -⟩ := hsound hrest'
  obtain ⟨-, -, rfl⟩ := hy.append_inj hy' (hfront.no_digit hmonth.vocabulary) (hfront'.no_digit hmonth'.vocabulary) hs
  exact hrest'

/-! ## Reading an anchor -/

/-- The words before the year of an anchor are of the vocabulary. -/
theorem IsMonth.vocabulary_append {month : List (List Char)} (h : IsMonth month) (lead : Lead) :
    ∀ word ∈ lead.words ++ month, IsVocabulary word := by
  intro word hw
  rcases List.mem_append.1 hw with hw | hw
  · exact isVocabulary_of_mem_words lead word hw
  · exact h.vocabulary word hw

/-- An anchor is read exactly where one is written between the boundaries of words. -/
theorem readAnchor_eq_some_iff {lead : Lead} {before : Option Char} {s phrase : List Char} {size : Nat} :
    readAnchor lead before s = some (phrase, size) ↔ before.any Text.isWord = false ∧
      ∃ rest, s = phrase ++ rest ∧ IsAnchor lead phrase ∧ Text.startsWithWord rest = false ∧ size = phrase.length := by
  constructor
  · intro h
    unfold readAnchor at h
    split at h
    · exact absurd h (by simp)
    · rename_i hbefore
      obtain ⟨rest, hrest, he⟩ := Option.map_eq_some_iff.1 h
      obtain ⟨date, hwords, hdate⟩ := Option.bind_eq_some_iff.1 hrest
      obtain ⟨front, rfl, hfront⟩ := exists_of_dropWords? hwords
      obtain ⟨month, middle, year, hmonth, hmiddle, hy, rfl, hword⟩ := dropDate?_eq_some_iff.1 hdate
      have hall : front ++ (middle ++ (year ++ rest)) = (front ++ middle ++ year) ++ rest := by
        simp only [List.append_assoc]
      have hsize : (front ++ (middle ++ (year ++ rest))).length - rest.length = (front ++ middle ++ year).length := by
        rw [hall, List.length_append, Nat.add_sub_cancel]
      obtain ⟨rfl, rfl⟩ := Prod.mk.inj he
      rw [hsize, hall, List.take_left]
      exact ⟨Bool.eq_false_iff.2 hbefore, rest, rfl, ⟨month, front ++ middle, year, hmonth, hfront.append hmiddle, hy, rfl⟩,
        hword, rfl⟩
  · rintro ⟨hbefore, rest, rfl, ⟨month, words, year, hmonth, hwords, hy, rfl⟩, hword, rfl⟩
    obtain ⟨front, middle, rfl, hfront, hmiddle⟩ := hwords.exists_of_append
    have hhead : ∀ c ∈ (middle ++ (year ++ rest)).head?, Text.isBlank c = false := by
      refine hmiddle.head_not_blank hmonth.vocabulary ?_
      obtain ⟨d, more, rfl, -, hblank⟩ := hy.exists_cons
      simpa using hblank
    have hall : (front ++ middle ++ year) ++ rest = front ++ (middle ++ (year ++ rest)) := by simp only [List.append_assoc]
    have hsize : (front ++ (middle ++ (year ++ rest))).length - rest.length = (front ++ middle ++ year).length := by
      rw [← hall, List.length_append, Nat.add_sub_cancel]
    rw [readAnchor, if_neg (Bool.eq_false_iff.1 hbefore), hall,
      dropWords?_append hfront (isVocabulary_of_mem_words lead) hhead, Option.bind_some,
      dropDate?_eq_some_iff.2 ⟨month, middle, year, hmonth, hmiddle, hy, rfl, hword⟩, Option.map_some, hsize, ← hall]
    simp only [List.take_left]

theorem IsAnchor.exists_cons {lead : Lead} {phrase : List Char} (h : IsAnchor lead phrase) :
    ∃ c rest, phrase = c :: rest ∧ Text.isBlank c = false := by
  obtain ⟨month, front, year, hmonth, hfront, hy, rfl⟩ := h
  obtain ⟨d, more, rfl, -, hblank⟩ := hy.exists_cons
  have hstart : ∀ c ∈ (d :: more).head?, Text.isBlank c = false := by simpa using hblank
  have hhead := hfront.head_not_blank (hmonth.vocabulary_append lead) hstart
  obtain ⟨c, rest, hc⟩ := List.exists_cons_of_ne_nil (List.append_ne_nil_of_right_ne_nil front (List.cons_ne_nil d more))
  rw [hc] at hhead ⊢
  exact ⟨c, rest, rfl, hhead c rfl⟩

/-- An anchor is digits behind text without digits. -/
theorem IsAnchor.exists_digits {lead : Lead} {phrase : List Char} (h : IsAnchor lead phrase) :
    ∃ front year, phrase = front ++ year ∧ year ≠ [] ∧ (∀ c ∈ front, Text.isWordDigit c = false) ∧
      ∀ c ∈ year, Text.isWordDigit c = true := by
  obtain ⟨month, front, year, hmonth, hfront, hy, rfl⟩ := h
  obtain ⟨d, more, hd, -, -⟩ := hy.exists_cons
  exact ⟨front, year, rfl, hd ▸ List.cons_ne_nil d more, hfront.no_digit (hmonth.vocabulary_append lead), hy.2⟩

/-- No digits stand in an anchor before a character that is no digit. -/
theorem IsAnchor.no_digit_before {lead : Lead} {front rest : List Char} {c : Char} (h : IsAnchor lead (front ++ c :: rest))
    (hc : Text.isWordDigit c = false) : ∀ d ∈ front, Text.isWordDigit d = false := by
  obtain ⟨words, year, he, -, hwords, hyear⟩ := h.exists_digits
  rcases List.append_eq_append_iff.1 he with ⟨middle, rfl, -⟩ | ⟨middle, -, rfl⟩
  · exact fun d hd => hwords d (List.mem_append_left _ hd)
  · have hdigit := hyear c (List.mem_append_right _ List.mem_cons_self)
    rw [hc] at hdigit
    exact absurd hdigit Bool.false_ne_true

/-- An anchor is a front of the text that is not empty and does not start with a line feed. -/
theorem exists_of_readAnchor {lead : Lead} {before : Option Char} {s phrase : List Char} {size : Nat}
    (h : readAnchor lead before s = some (phrase, size)) :
    phrase ≠ [] ∧ phrase.head? ≠ some '\n' ∧ phrase <+: s := by
  obtain ⟨-, rest, rfl, hanchor, -, -⟩ := readAnchor_eq_some_iff.1 h
  obtain ⟨c, more, rfl, hc⟩ := hanchor.exists_cons
  refine ⟨List.cons_ne_nil c more, fun e => ?_, List.prefix_append _ rest⟩
  rw [Option.some.inj e] at hc
  exact absurd hc (by decide)

/-! ## Anchors of texts that go on -/

/-- A text with more behind it starts with a word character when it does so itself, if what is behind it does not. -/
theorem startsWithWord_append (s : List Char) {more : List Char} (h : Text.startsWithWord more = false) :
    Text.startsWithWord (s ++ more) = Text.startsWithWord s := by
  cases s with
  | nil => exact h
  | cons c s => rfl

/-- The anchors of a text are read in the same way with more behind it that does not start with a word character. -/
theorem isStable_readAnchor (lead : Lead) {more : List Char} (h : Text.startsWithWord more = false) :
    Text.IsStable (readAnchor lead) more := by
  refine Text.isStable_of_reads ?_ ?_ ?_
  · intro before s phrase size hread
    obtain ⟨-, rest, rfl, -, -, rfl⟩ := readAnchor_eq_some_iff.1 hread
    rw [List.length_append]
    exact Nat.le_add_right _ _
  · rintro before s ⟨phrase, size⟩ hread
    obtain ⟨hbefore, rest, rfl, hanchor, hword, rfl⟩ := readAnchor_eq_some_iff.1 hread
    exact ⟨_, readAnchor_eq_some_iff.2 ⟨hbefore, rest ++ more, List.append_assoc _ _ _, hanchor,
      by rw [startsWithWord_append rest h, hword], rfl⟩⟩
  · intro before s phrase size hread hle
    obtain ⟨hbefore, rest, hs, hanchor, hword, rfl⟩ := readAnchor_eq_some_iff.1 hread
    obtain ⟨middle, rfl, rfl⟩ := Text.exists_of_append_eq_append hs hle
    rw [startsWithWord_append middle h] at hword
    exact readAnchor_eq_some_iff.2 ⟨hbefore, middle, rfl, hanchor, hword, rfl⟩

/-- No anchor reaches a carriage return at the end of a text. -/
theorem size_le_of_readAnchor_concat {lead : Lead} {before : Option Char} {s phrase : List Char} {size : Nat}
    (h : readAnchor lead before (s ++ ['\r']) = some (phrase, size)) : 0 < size ∧ size ≤ s.length := by
  obtain ⟨-, rest, hs, hanchor, -, rfl⟩ := readAnchor_eq_some_iff.1 h
  obtain ⟨c, more, hc, -⟩ := hanchor.exists_cons
  refine ⟨by rw [hc]; exact Nat.succ_pos _, ?_⟩
  obtain ⟨front, year, rfl, hne, -, hdigits⟩ := hanchor.exists_digits
  by_cases hrest : rest = []
  · have hlast : (s ++ ['\r']).getLast? = year.getLast? := by
      rw [hs, hrest, List.append_nil, List.getLast?_append, List.getLast?_eq_some_getLast hne, Option.some_or]
    rw [List.getLast?_concat] at hlast
    exact absurd (hdigits _ (List.mem_of_mem_getLast? hlast.symm)) (by decide)
  · have hlength := congrArg List.length hs
    have hpos := List.length_pos_iff.2 hrest
    simp only [List.length_append, List.length_singleton] at hlength ⊢
    omega

/-- The anchors of a text stay the first ones when it goes on: none that crosses its end starts before one of them, since what it
has in the text has no digits. -/
theorem occurrences_readAnchor_prefix (lead : Lead) {s longer : List Char} (h : Text.GoesOn s longer) :
    Text.occurrences (readAnchor lead) s <+: Text.occurrences (readAnchor lead) longer := by
  obtain ⟨front, rest, more, rfl, rfl, -, hmore, hfront⟩ := h.exists_front (isStable_readAnchor lead (by decide))
    fun _ _ _ _ => size_le_of_readAnchor_concat
  have hword : Text.startsWithWord more = false := by
    cases more with
    | nil => rfl
    | cons c more =>
      have hc : Text.isWord c = false := by
        rw [hmore c rfl]
        decide
      rw [Text.startsWithWord, List.head?_cons, Option.any_some, hc]
  rw [hfront, Text.occurrences, Text.occurrences]
  rcases Text.occurrencesFrom_append (isStable_readAnchor lead hword) none 0 (Nat.zero_le front.length) with
    hall | ⟨kept, lost, o, behind, hs, hall, hcross, hlost⟩
  · exact hall ▸ List.prefix_append _ _
  · cases lost with
    | nil =>
      rw [hs, hall, List.append_nil]
      exact List.prefix_append _ _
    | cons l lost =>
      exfalso
      obtain ⟨a, b, previous, size, rfl, -, hstart, hread, hlt⟩ := hcross
      obtain ⟨-, after, hb, hanchor, -, rfl⟩ := readAnchor_eq_some_iff.1 hread
      have hdigit : ∀ d ∈ b, Text.isWordDigit d = false := by
        obtain ⟨part, hpart, hmore'⟩ := Text.exists_of_append_eq_append hb.symm (Nat.le_of_lt hlt)
        cases part with
        | nil => exact absurd hlt (by rw [hpart, List.append_nil]; exact Nat.lt_irrefl _)
        | cons c part =>
          rw [hpart] at hanchor
          obtain rfl := hmore c (by rw [hmore']; rfl)
          exact hanchor.no_digit_before (by decide)
      have hl : l ∈ Text.occurrencesFrom (readAnchor lead) none 0 0 (a ++ b) := by
        rw [hs]
        exact List.mem_append_right _ List.mem_cons_self
      obtain ⟨a', b', previous', size', hab, -, hstart', hread'⟩ := Text.exists_of_mem_occurrencesFrom hl
      obtain ⟨-, after', rfl, hanchor', -, -⟩ := readAnchor_eq_some_iff.1 hread'
      obtain ⟨words, year, hphrase, hne, -, hdigits⟩ := hanchor'.exists_digits
      obtain ⟨d, year, rfl⟩ := List.exists_cons_of_ne_nil hne
      have hle := hlost l List.mem_cons_self
      obtain ⟨middle, rfl, rfl⟩ := Text.exists_of_append_eq_append hab.symm (by omega)
      have hno := hdigit d (by simp [hphrase])
      rw [hdigits d List.mem_cons_self] at hno
      exact absurd hno (by decide)

/-- The first anchor stays the first one when the text goes on, and it starts on the same line. -/
theorem firstAnchor?_of_goesOn {lead : Lead} {s longer : List Char} {o : Text.Occurrence (List Char)}
    (h : Text.GoesOn s longer) (ho : firstAnchor? lead s = some o) :
    firstAnchor? lead longer = some o ∧ Text.lineAt longer o.start = Text.lineAt s o.start := by
  obtain ⟨more, hmore⟩ := occurrences_readAnchor_prefix lead h
  refine ⟨by rw [firstAnchor?, ← hmore, List.head?_append, ← firstAnchor?, ho]; rfl, h.lineAt_eq ?_⟩
  obtain ⟨front, rest, previous, size, rfl, hstart, hread⟩ := Text.exists_of_mem_occurrences (List.mem_of_mem_head? ho)
  obtain ⟨hne, -, after, hafter⟩ := exists_of_readAnchor hread
  have hpos := List.length_pos_iff.2 hne
  rw [← hafter, List.length_append, List.length_append]
  omega

end SkillLint.Wording
