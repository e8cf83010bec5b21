import SkillLint.Proofs.Check.PathSeparator

/-!
# The word around the first path separator

Every backslash that separates nothing has a reason for it in the text around it (`isPassedOver_iff`). The search stops at the first
backslash of the first line without such a reason, and cuts out of the line what stands around it without blanks: the blank-free
texts around a place of a line are parts of the longest one (`isLongestWord_wordAround`). So the search is determined by the reasons
and by the longest words alone (`findBackslashPath_firstWord`).
-/

namespace SkillLint.Check

variable {before behind line word : List Char}

/-! ## Reasons to pass over a backslash -/

/-- The reasons for which a backslash separates nothing, given the texts before and behind it on its line. -/
inductive IsPassedOver (before behind : List Char) : Prop
  /-- It stands directly behind a backtick. -/
  | behindBacktick (h : before.getLast? = some '`')
  /-- It ends its line. -/
  | endsLine (h : behind = [])
  /-- A blank stands behind it. -/
  | beforeBlank {c : Char} {rest : List Char} (h : behind = c :: rest) (hc : Text.isBlank c = true)
  /-- It is an escape: one of the letters n, t and r stands behind it, and it is inside a span of quotes or of backticks, or no word
  goes on behind the letter. -/
  | escape {c : Char} {rest : List Char} (h : behind = c :: rest) (hc : c = 'n' ∨ c = 't' ∨ c = 'r')
    (hspan : before.count '"' % 2 = 1 ∨ before.count '`' % 2 = 1 ∨
      ∀ d ∈ rest.head?, Text.isAlphanumeric d = false ∧ d ≠ '_')

/-- A backslash separates path segments when there is no reason to pass over it, and only then. -/
theorem isPassedOver_iff : IsPassedOver before behind ↔ ¬IsPathSeparator before behind := by
  constructor
  · rintro h ⟨hback, c, rest, rfl, hblank, hletter⟩
    cases h with
    | behindBacktick h => exact hback h
    | endsLine h => exact List.cons_ne_nil c rest h
    | beforeBlank h hc =>
      obtain ⟨rfl, rfl⟩ := List.cons.inj h
      rw [hblank] at hc
      exact Bool.false_ne_true hc
    | escape h hc hspan =>
      obtain ⟨rfl, rfl⟩ := List.cons.inj h
      obtain ⟨hquote, htick, d, hd, hword⟩ := hletter hc
      rcases hspan with hspan | hspan | hspan
      · omega
      · omega
      · obtain ⟨halpha, hline⟩ := hspan d hd
        rw [continuesWord, halpha, Bool.false_or, beq_iff_eq] at hword
        exact hline hword
  · intro h
    by_cases hback : before.getLast? = some '`'
    · exact .behindBacktick hback
    · cases behind with
      | nil => exact .endsLine rfl
      | cons c rest =>
        cases hblank : Text.isBlank c with
        | true => exact .beforeBlank rfl hblank
        | false =>
          have hletter : c = 'n' ∨ c = 't' ∨ c = 'r' := Classical.byContradiction fun hc =>
            h ⟨hback, c, rest, rfl, hblank, fun hc' => absurd hc' hc⟩
          refine .escape rfl hletter ?_
          by_cases hquote : before.count '"' % 2 = 1
          · exact .inl hquote
          · by_cases htick : before.count '`' % 2 = 1
            · exact .inr (.inl htick)
            · refine .inr (.inr fun d hd => ?_)
              have hword : continuesWord d = false := Bool.eq_false_iff.2 fun hw =>
                h ⟨hback, c, rest, rfl, hblank, fun _ => ⟨by omega, by omega, d, hd, hw⟩⟩
              rw [continuesWord, Bool.or_eq_false_iff, beq_eq_false_iff_ne] at hword
              exact hword

/-- Whether all backslashes of a line are passed over. -/
def HasNoPath (line : List Char) : Prop :=
  ∀ before behind, line = before ++ '\\' :: behind → IsPassedOver before behind

theorem hasNoPath_iff : HasNoPath line ↔ ¬HasSeparator line := by
  simp only [HasNoPath, HasSeparator, isPassedOver_iff, not_exists, not_and]

/-! ## The first backslash of a line -/

/-- A place of a line with the first backslash that is not passed over. -/
structure IsFirstPath (line before behind : List Char) : Prop where
  stands : line = before ++ '\\' :: behind
  separates : ¬IsPassedOver before behind
  first : ∀ front rest, line = front ++ '\\' :: rest → front.length < before.length → IsPassedOver front rest

/-- There is one such place at most. -/
theorem IsFirstPath.unique {before' behind' : List Char} (h : IsFirstPath line before behind)
    (h' : IsFirstPath line before' behind') : before = before' ∧ behind = behind' := by
  have hlength : before.length = before'.length := by
    rcases Nat.lt_trichotomy before.length before'.length with hlt | heq | hgt
    · exact absurd (h'.first before behind h.stands hlt) h.separates
    · exact heq
    · exact absurd (h.first before' behind' h'.stands hgt) h'.separates
  obtain ⟨hbefore, hbehind⟩ := List.append_inj (h.stands.symm.trans h'.stands) hlength
  exact ⟨hbefore, (List.cons.inj hbehind).2⟩

/-- The search in a line that has been read up to a place stops at the first backslash that separates, if nothing did so before. -/
theorem exists_isFirstPath_of_separatorWord? {read rest : List Char} (h : separatorWord? read.reverse rest = some word)
    (hread : ∀ front behind, read ++ rest = front ++ '\\' :: behind → front.length < read.length →
      IsPassedOver front behind) :
    ∃ before behind, IsFirstPath (read ++ rest) before behind ∧ word = wordAround before.reverse ('\\' :: behind) := by
  induction rest generalizing read with
  | nil => exact absurd h (by simp [separatorWord?])
  | cons c rest ih =>
    rw [separatorWord?] at h
    split at h
    · rename_i hc
      obtain ⟨rfl, hseparates⟩ := hc
      refine ⟨read, rest, ⟨rfl, ?_, hread⟩, (Option.some.inj h).symm⟩
      rw [isPassedOver_iff, Classical.not_not]
      exact separatesPath_reverse_iff.1 hseparates
    · rename_i hc
      have hreverse : c :: read.reverse = (read ++ [c]).reverse := by simp
      have hline : read ++ c :: rest = (read ++ [c]) ++ rest := by simp
      rw [hreverse] at h
      rw [hline] at hread ⊢
      refine ih h fun front behind he hlt => ?_
      rw [List.length_append, List.length_singleton] at hlt
      rcases Nat.lt_or_eq_of_le (Nat.le_of_lt_succ hlt) with hlt | heq
      · exact hread front behind he hlt
      · -- The place is that of the character that was just read, at which the search did not stop.
        rw [← hline] at he
        obtain ⟨rfl, hcons⟩ := List.append_inj he heq.symm
        obtain ⟨rfl, rfl⟩ := List.cons.inj hcons
        rw [isPassedOver_iff, ← separatesPath_reverse_iff]
        exact fun hseparates => hc ⟨rfl, hseparates⟩

/-! ## The word around a place -/

/-- A blank-free text around a backslash that reaches over parts of the texts before and behind it. -/
structure IsWordAround (before behind left right : List Char) : Prop where
  left_suffix : left <:+ before
  right_prefix : right <+: behind
  no_blank : ∀ c ∈ left ++ '\\' :: right, Text.isBlank c = false

/-- The longest blank-free text around a backslash: all others are parts of it. -/
def IsLongestWord (before behind word : List Char) : Prop :=
  ∃ left right, word = left ++ '\\' :: right ∧ IsWordAround before behind left right ∧
    ∀ left' right', IsWordAround before behind left' right' → left' <:+ left ∧ right' <+: right

/-- There is one longest word around a backslash. -/
theorem IsLongestWord.unique {word' : List Char} (h : IsLongestWord before behind word)
    (h' : IsLongestWord before behind word') : word = word' := by
  obtain ⟨left, right, rfl, haround, hall⟩ := h
  obtain ⟨left', right', rfl, haround', hall'⟩ := h'
  obtain ⟨hleft, hright⟩ := hall left' right' haround'
  obtain ⟨hleft', hright'⟩ := hall' left right haround
  rw [hleft.eq_of_length_le hleft'.length_le, hright.eq_of_length_le hright'.length_le]

/-- A blank-free front of a text is a front of its longest blank-free front. -/
theorem isPrefix_takeWhile {front s : List Char} (h : front <+: s) (hfront : ∀ c ∈ front, Text.isBlank c = false) :
    front <+: s.takeWhile fun c => !Text.isBlank c := by
  obtain ⟨rest, rfl⟩ := h
  rw [List.takeWhile_append_of_pos fun c hc => by rw [hfront c hc]; rfl]
  exact List.prefix_append _ _

/-- The word that is cut out around a backslash is the longest one. -/
theorem isLongestWord_wordAround (before behind : List Char) :
    IsLongestWord before behind (wordAround before.reverse ('\\' :: behind)) := by
  have hblank : ∀ (s : List Char), ∀ c ∈ s.takeWhile (fun c => !Text.isBlank c), Text.isBlank c = false := fun s c hc => by
    simpa using List.all_eq_true.1 List.all_takeWhile c hc
  refine ⟨(before.reverse.takeWhile fun c => !Text.isBlank c).reverse, behind.takeWhile fun c => !Text.isBlank c, ?_, ?_, ?_⟩
  · rw [wordAround, List.takeWhile_cons_of_pos (by decide)]
  · refine ⟨?_, List.takeWhile_prefix _, fun c hc => ?_⟩
    · rw [← List.reverse_prefix, List.reverse_reverse]
      exact List.takeWhile_prefix _
    · rcases List.mem_append.1 hc with hc | hc
      · exact hblank _ c (List.mem_reverse.1 hc)
      · rcases List.mem_cons.1 hc with rfl | hc
        · decide
        · exact hblank _ c hc
  · rintro left right ⟨hleft, hright, hword⟩
    refine ⟨?_, isPrefix_takeWhile hright fun c hc => hword c (by simp [hc])⟩
    rw [← List.reverse_prefix, List.reverse_reverse]
    exact isPrefix_takeWhile (List.reverse_prefix.2 hleft) fun c hc => hword c (List.mem_append_left _ (List.mem_reverse.1 hc))

/-! ## The search in a text -/

/-- What the search finds in a line: the longest word around the first backslash that is not passed over. -/
def IsPathWord (line word : List Char) : Prop :=
  ∃ before behind, IsFirstPath line before behind ∧ IsLongestWord before behind word

/-- The search in a line finds the longest word around the first backslash that is not passed over. -/
theorem separatorWord?_nil_eq_some_iff : separatorWord? [] line = some word ↔ IsPathWord line word := by
  have hsound : ∀ {word}, separatorWord? [] line = some word → IsPathWord line word := fun {word} h => by
    obtain ⟨before, behind, hfirst, rfl⟩ := @exists_isFirstPath_of_separatorWord? word [] line h
      fun front _ _ hlt => absurd hlt (Nat.not_lt_zero front.length)
    exact ⟨before, behind, hfirst, isLongestWord_wordAround before behind⟩
  refine ⟨hsound, ?_⟩
  rintro ⟨before, behind, hfirst, hlongest⟩
  cases hfound : separatorWord? [] line with
  | none =>
    have hno := hasNoPath_iff.2 (separatorWord?_nil_eq_none_iff.1 hfound)
    exact absurd (hno before behind hfirst.stands) hfirst.separates
  | some word' =>
    obtain ⟨before', behind', hfirst', hlongest'⟩ := hsound hfound
    obtain ⟨rfl, rfl⟩ := hfirst.unique hfirst'
    rw [hlongest.unique hlongest']

/-- The search in some lines finds the word of the first line in which there is one to be found. -/
theorem firstSeparator?_eq_some_iff {number found : Nat} {word : String} {ls : List (List Char)} :
    firstSeparator? number ls = some (found, word) ↔
      ∃ above line below, ls = above ++ line :: below ∧ found = number + above.length ∧ (∀ l ∈ above, HasNoPath l) ∧
        IsPathWord line word.toList := by
  induction ls generalizing number with
  | nil => simp [firstSeparator?]
  | cons l ls ih =>
    rw [firstSeparator?]
    split
    · rename_i path hpath
      have hword := separatorWord?_nil_eq_some_iff.1 hpath
      constructor
      · intro h
        obtain ⟨rfl, rfl⟩ := Prod.mk.inj (Option.some.inj h)
        exact ⟨[], l, ls, rfl, rfl, by simp, by rwa [String.toList_ofList]⟩
      · rintro ⟨above, line, below, hls, rfl, habove, hline⟩
        cases above with
        | nil =>
          obtain ⟨rfl, rfl⟩ := List.cons.inj hls
          rw [← separatorWord?_nil_eq_some_iff, hpath] at hline
          rw [Option.some.inj hline, String.ofList_toList]
          rfl
        | cons l' above =>
          obtain ⟨rfl, -⟩ := List.cons.inj hls
          obtain ⟨before, behind, hfirst, -⟩ := hword
          exact absurd (habove l List.mem_cons_self before behind hfirst.stands) hfirst.separates
    · rename_i hnone
      have hno := hasNoPath_iff.2 (separatorWord?_nil_eq_none_iff.1 hnone)
      rw [ih]
      constructor
      · rintro ⟨above, line, below, rfl, rfl, habove, hline⟩
        exact ⟨l :: above, line, below, rfl, by rw [List.length_cons]; omega, List.forall_mem_cons.2 ⟨hno, habove⟩, hline⟩
      · rintro ⟨above, line, below, hls, rfl, habove, hline⟩
        cases above with
        | nil =>
          obtain ⟨rfl, -⟩ := List.cons.inj hls
          obtain ⟨before, behind, hfirst, -⟩ := hline
          exact absurd (hno before behind hfirst.stands) hfirst.separates
        | cons l' above =>
          obtain ⟨rfl, rfl⟩ := List.cons.inj hls
          obtain ⟨-, habove⟩ := List.forall_mem_cons.1 habove
          exact ⟨above, line, below, rfl, by rw [List.length_cons]; omega, habove, hline⟩

/-- A line in which something is found has a backslash that separates path segments. -/
theorem IsPathWord.hasSeparator (h : IsPathWord line word) : HasSeparator line := by
  obtain ⟨before, behind, hfirst, -⟩ := h
  have hseparates := hfirst.separates
  rw [isPassedOver_iff, Classical.not_not] at hseparates
  exact ⟨before, behind, hfirst.stands, hseparates⟩

theorem IsPathWord.isInfix (h : IsPathWord line word) : word <:+: line := by
  obtain ⟨before, behind, hfirst, left, right, rfl, ⟨⟨front, rfl⟩, ⟨rest, rfl⟩, -⟩, -⟩ := h
  exact ⟨front, rest, by rw [hfirst.stands]; simp only [List.append_assoc, List.cons_append]⟩

theorem IsPathWord.mem (h : IsPathWord line word) : '\\' ∈ word := by
  obtain ⟨-, -, -, left, right, rfl, -, -⟩ := h
  exact List.mem_append_right _ List.mem_cons_self

/-- The search in a text finds nothing when there is a reason to pass over each backslash of each line, and only then. Otherwise it
finds, with its number counted from zero, the first line that has another backslash, and the longest blank-free word around the
first such backslash of the line; the backslash is in that word, so the word is not empty. -/
theorem findBackslashPath_firstWord (body : String) :
    (findBackslashPath body = none ↔ ∀ line ∈ Text.lines body.toList, HasNoPath line) ∧
    ∀ number word, findBackslashPath body = some (number, word) ↔
      (∃ above line below, Text.lines body.toList = above ++ line :: below ∧ number = above.length ∧
        (∀ l ∈ above, HasNoPath l) ∧ IsPathWord line word.toList) ∧ word ≠ "" ∧ '\\' ∈ word.toList := by
  refine ⟨?_, fun number word => ?_⟩
  · rw [findBackslashPath, firstSeparator?_eq_none_iff]
    simp only [HasNoPath, isPassedOver_iff]
  · rw [findBackslashPath, firstSeparator?_eq_some_iff]
    constructor
    · rintro ⟨above, line, below, hls, rfl, habove, hline⟩
      have hmem := hline.mem
      refine ⟨⟨above, line, below, hls, Nat.zero_add _, habove, hline⟩, ?_, hmem⟩
      rintro rfl
      exact absurd hmem List.not_mem_nil
    · rintro ⟨⟨above, line, below, hls, rfl, habove, hline⟩, -, -⟩
      exact ⟨above, line, below, hls, (Nat.zero_add _).symm, habove, hline⟩

/-- Escapes in quotes and at the ends of words are passed over, and of the words with separators the first one is found. -/
example : findBackslashPath "say \"a\\nb\" and\\n,\nrun \\ on docs\\notes.md\\x now\na\\b" = some (1, "docs\\notes.md\\x") := by
  decide +kernel

end SkillLint.Check
