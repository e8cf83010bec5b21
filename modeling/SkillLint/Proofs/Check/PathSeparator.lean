import SkillLint.Check.Body
import SkillLint.Proofs.Report
import SkillLint.Proofs.Text.Continued

/-!
# Which backslashes separate path segments

A backslash is judged by the text around it on its line. The search looks at the backslashes of every line from the left with
the text before each of them turned around; nothing is found exactly when no line has a backslash that separates.
-/

namespace SkillLint.Check

/-- Whether a backslash separates path segments, given the texts before and behind it on its line. -/
def IsPathSeparator (before behind : List Char) : Prop :=
  before.getLast? ≠ some '`' ∧ ∃ c rest, behind = c :: rest ∧ Text.isBlank c = false ∧
    ((c = 'n' ∨ c = 't' ∨ c = 'r') →
      before.count '"' % 2 = 0 ∧ before.count '`' % 2 = 0 ∧ ∃ d ∈ rest.head?, continuesWord d = true)

/-- Whether a text has no backslash that separates path segments. -/
def HasNoSeparator (body : List Char) : Prop :=
  ∀ line ∈ Text.lines body, ∀ before behind, line = before ++ '\\' :: behind → ¬IsPathSeparator before behind

theorem hasNoSeparator_of_no_backslash {body : List Char} (h : '\\' ∉ body) : HasNoSeparator body := by
  intro line hl before behind e
  exact absurd (Text.mem_of_mem_lines hl (by rw [e]; simp)) h

theorem opensSpan_reverse {mark : Char} {before : List Char} :
    opensSpan mark before.reverse = true ↔ before.count mark % 2 = 1 := by
  rw [opensSpan, List.count_reverse, beq_iff_eq]

/-- What is no escape stands outside spans and has a word going on behind its letter. -/
theorem isEscape_reverse_eq_false_iff {before rest : List Char} : isEscape before.reverse rest = false ↔
    before.count '"' % 2 = 0 ∧ before.count '`' % 2 = 0 ∧ ∃ d ∈ rest.head?, continuesWord d = true := by
  rw [isEscape, Bool.or_eq_false_iff, Bool.or_eq_false_iff, Bool.eq_false_iff, Bool.eq_false_iff, Ne, Ne, opensSpan_reverse,
    opensSpan_reverse, Nat.mod_two_not_eq_one, Nat.mod_two_not_eq_one, Bool.not_eq_false', Option.any_eq_true]
  simp only [and_assoc, Option.mem_def]

/-- A backslash is judged as the texts around it say. -/
theorem separatesPath_reverse_iff {before behind : List Char} :
    separatesPath before.reverse behind = true ↔ IsPathSeparator before behind := by
  unfold separatesPath IsPathSeparator
  rw [List.head?_reverse, Bool.and_eq_true, bne_iff_ne]
  refine and_congr_right fun _ => ?_
  cases behind with
  | nil => simp
  | cons c rest =>
    have he : (∃ c' rest', c :: rest = c' :: rest' ∧ Text.isBlank c' = false ∧ ((c' = 'n' ∨ c' = 't' ∨ c' = 'r') →
        before.count '"' % 2 = 0 ∧ before.count '`' % 2 = 0 ∧ ∃ d ∈ rest'.head?, continuesWord d = true)) ↔
        Text.isBlank c = false ∧ ((c = 'n' ∨ c = 't' ∨ c = 'r') → isEscape before.reverse rest = false) := by
      rw [isEscape_reverse_eq_false_iff]
      constructor
      · rintro ⟨c', rest', h, hc⟩
        obtain ⟨rfl, rfl⟩ := List.cons.inj h
        exact hc
      · exact fun h => ⟨c, rest, rfl, h⟩
    rw [he]
    by_cases hn : c = 'n' ∨ c = 't' ∨ c = 'r'
    · have hb : (c == 'n' || c == 't' || c == 'r') = true := by simpa [or_assoc] using hn
      simp [hb, hn]
    · have hb : (c == 'n' || c == 't' || c == 'r') = false := by simpa [not_or, and_assoc] using hn
      simp [hb, hn]

/-- The search in a line finds nothing exactly when no backslash in the rest of the line separates. -/
theorem separatorWord?_eq_none_iff {before rest : List Char} : separatorWord? before.reverse rest = none ↔
    ∀ front behind, rest = front ++ '\\' :: behind → ¬IsPathSeparator (before ++ front) behind := by
  induction rest generalizing before with
  | nil => simp [separatorWord?]
  | cons c rest ih =>
    have hr : c :: before.reverse = (before ++ [c]).reverse := by simp
    rw [separatorWord?]
    split
    · rename_i h
      simp only [reduceCtorEq, false_iff]
      intro hall
      refine hall [] rest (by rw [h.1]; rfl) ?_
      rw [List.append_nil]
      exact separatesPath_reverse_iff.1 h.2
    · rename_i h
      rw [hr, ih]
      constructor
      · intro hall front behind e hs
        cases front with
        | nil =>
          obtain ⟨rfl, rfl⟩ := List.cons.inj e
          rw [List.append_nil] at hs
          exact h ⟨rfl, separatesPath_reverse_iff.2 hs⟩
        | cons d front =>
          obtain ⟨rfl, rfl⟩ := List.cons.inj e
          exact hall front behind rfl (by simpa using hs)
      · intro hall front behind e hs
        exact hall (c :: front) behind (by rw [e]; rfl) (by simpa using hs)

/-- The search finds nothing exactly when no line has a backslash that separates. -/
theorem firstSeparator?_eq_none_iff {ls : List (List Char)} (number : Nat) : firstSeparator? number ls = none ↔
    ∀ line ∈ ls, ∀ before behind, line = before ++ '\\' :: behind → ¬IsPathSeparator before behind := by
  induction ls generalizing number with
  | nil => simp [firstSeparator?]
  | cons line ls ih =>
    have hline : separatorWord? [] line = none ↔
        ∀ before behind, line = before ++ '\\' :: behind → ¬IsPathSeparator before behind := by
      have := @separatorWord?_eq_none_iff [] line
      simpa using this
    rw [List.forall_mem_cons, ← hline, ← ih (number + 1), firstSeparator?]
    cases separatorWord? [] line <;> simp

/-- The check of path separators makes no error exactly when no backslash separates. -/
theorem errorFree_pathSeparatorFindings_iff {c : Context} :
    Finding.ErrorFree (pathSeparatorFindings c) ↔ HasNoSeparator c.body.toList := by
  rw [HasNoSeparator, ← firstSeparator?_eq_none_iff 0, ← findBackslashPath, pathSeparatorFindings]
  split
  · rename_i h
    rw [h, Finding.errorFree_singleton_iff, Rule.isError_onLine]
    exact ⟨fun h' => absurd h' (by decide), fun h' => absurd h' (by simp)⟩
  · rename_i h
    simp [h]

/-- Whether a line has a backslash that separates path segments. -/
def HasSeparator (line : List Char) : Prop :=
  ∃ before behind, line = before ++ '\\' :: behind ∧ IsPathSeparator before behind

/-- The search in a line finds nothing exactly when the line has no backslash that separates. -/
theorem separatorWord?_nil_eq_none_iff {line : List Char} : separatorWord? [] line = none ↔ ¬HasSeparator line := by
  have h := @separatorWord?_eq_none_iff [] line
  rw [List.reverse_nil] at h
  rw [h]
  constructor
  · rintro hall ⟨before, behind, he, hs⟩
    exact hall before behind he hs
  · intro hno before behind he hs
    exact hno ⟨before, behind, he, hs⟩

/-! ## Carriage returns -/

/-- A carriage return at the end of a line does not change how the backslashes before it are judged. -/
theorem separatesPath_append_return (before behind : List Char) :
    separatesPath before (behind ++ ['\r']) = separatesPath before behind := by
  cases behind with
  | nil => simp [separatesPath, show Text.isBlank '\r' = true from rfl]
  | cons c rest =>
    cases rest with
    | nil => simp [separatesPath, isEscape, show continuesWord '\r' = false by decide]
    | cons d rest => rfl

/-- A carriage return at the end of a line is in no word. -/
theorem wordAround_append_return (before rest : List Char) :
    wordAround before (rest ++ ['\r']) = wordAround before rest := by
  have ht : (rest ++ ['\r']).takeWhile (fun c => !Text.isBlank c) = rest.takeWhile fun c => !Text.isBlank c := by
    induction rest with
    | nil => rfl
    | cons c rest ih => simp only [List.cons_append, List.takeWhile_cons, ih]
  rw [wordAround, ht, wordAround]

/-- The search in a line does not see a carriage return at the end. -/
theorem separatorWord?_append_return (before rest : List Char) :
    separatorWord? before (rest ++ ['\r']) = separatorWord? before rest := by
  induction rest generalizing before with
  | nil => rfl
  | cons c rest ih =>
    rw [List.cons_append, separatorWord?, separatorWord?, separatesPath_append_return, ← List.cons_append,
      wordAround_append_return, ih]

/-- The search in joined lines, split again, is the search in the lines. -/
theorem firstSeparator?_lines_joinLines {ls : List (List Char)} (hls : ∀ l ∈ ls, '\n' ∉ l) (number : Nat) :
    firstSeparator? number (Text.lines (Text.joinLines ls)) = firstSeparator? number ls := by
  induction ls generalizing number with
  | nil => rfl
  | cons l ls ih =>
    obtain ⟨hl, hls'⟩ := List.forall_mem_cons.1 hls
    by_cases hnil : ls = []
    · subst hnil
      rw [Text.joinLines_singleton]
      by_cases hempty : l = []
      · rw [hempty]
        rfl
      · rw [Text.lines_of_no_newline hempty hl]
    · rw [Text.joinLines_cons l hnil]
      obtain ⟨line, hlines, hline⟩ := Text.exists_lines_append_newline hl (Text.joinLines ls)
      have hword : separatorWord? [] l = separatorWord? [] line := by
        rcases hline with rfl | rfl
        · rfl
        · exact separatorWord?_append_return [] line
      rw [hlines, firstSeparator?, firstSeparator?, hword, ih hls' (number + 1)]

/-- What the search finds in a line it finds with lines below it. -/
theorem firstSeparator?_cons_of_singleton {l : List Char} {number : Nat} {found : Nat × String}
    (h : firstSeparator? number [l] = some found) (more : List (List Char)) :
    firstSeparator? number (l :: more) = some found := by
  rw [firstSeparator?] at h ⊢
  cases hword : separatorWord? [] l with
  | some word => rwa [hword] at h
  | none =>
    rw [hword] at h
    exact absurd h (by simp [firstSeparator?])

/-- What the search finds in some lines it finds when they are ended and there are lines below them. -/
theorem firstSeparator?_of_ended {ls ended : List (List Char)} (h : Text.Ended ls ended) (more : List (List Char))
    {number : Nat} {found : Nat × String} (hf : firstSeparator? number ls = some found) :
    firstSeparator? number (ended ++ more) = some found := by
  induction h generalizing number with
  | empty => exact absurd hf (by simp [firstSeparator?])
  | same l => exact firstSeparator?_cons_of_singleton hf more
  | carriage l =>
    rw [firstSeparator?, separatorWord?_append_return, ← firstSeparator?] at hf
    exact firstSeparator?_cons_of_singleton hf more
  | @cons l ls ended h ih =>
    rw [List.cons_append]
    rw [firstSeparator?] at hf ⊢
    cases hword : separatorWord? [] l with
    | some word => rwa [hword] at hf
    | none =>
      rw [hword] at hf
      exact ih hf

end SkillLint.Check
