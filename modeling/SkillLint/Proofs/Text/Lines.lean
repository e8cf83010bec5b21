import SkillLint.Text.Lines

/-!
# Lines and the text they come from

Two round trips. Whole lines put before a text are its first lines, provided that none of them holds a line feed or ends in
a carriage return; and joining the lines of a text gives the text back, provided that it holds no carriage return and does
not end in a line feed.
-/

namespace SkillLint.Text

/-- Lines with a line feed behind each of them. -/
def endLines (ls : List (List Char)) : List Char :=
  ls.flatMap (· ++ ['\n'])

/-- What a line must be to be read back: it has no line feed in it, and no carriage return that the one behind it would
take away. -/
def IsLine (l : List Char) : Prop :=
  '\n' ∉ l ∧ l.getLast? ≠ some '\r'

theorem endLines_cons (l : List Char) (ls : List (List Char)) : endLines (l :: ls) = l ++ '\n' :: endLines ls := by
  simp [endLines]

/-! ## Reading lines back -/

/-- A line put before a text is the first of its lines. -/
theorem lines_append_newline {l : List Char} (h : IsLine l) (rest : List Char) :
    lines (l ++ '\n' :: rest) = l :: lines rest := by
  obtain ⟨hn, hr⟩ := h
  induction l with
  | nil => exact lines_newline rest
  | cons c l ih =>
    have hc : c ≠ '\n' := fun e => hn (e ▸ List.mem_cons_self)
    have hn' : '\n' ∉ l := fun e => hn (List.mem_cons_of_mem _ e)
    have hret : ¬(c = '\r' ∧ (l ++ '\n' :: rest).head? = some '\n') := by
      rintro ⟨rfl, he⟩
      cases l with
      | nil => exact hr rfl
      | cons d l => exact hn' (Option.some.inj he ▸ List.mem_cons_self)
    have hr' : l.getLast? ≠ some '\r' := by
      cases l with
      | nil => simp
      | cons d l => rwa [List.getLast?_cons_cons] at hr
    rw [List.cons_append, lines, if_neg hc, if_neg hret, ih hn' hr']
    rfl

theorem lines_endLines_append {ls : List (List Char)} (h : ∀ l ∈ ls, IsLine l) (rest : List Char) :
    lines (endLines ls ++ rest) = ls ++ lines rest := by
  induction ls with
  | nil => rfl
  | cons l ls ih =>
    have e : endLines (l :: ls) ++ rest = l ++ '\n' :: (endLines ls ++ rest) := by
      rw [endLines_cons, List.append_assoc, List.cons_append]
    rw [e, lines_append_newline (h l List.mem_cons_self), ih fun m hm => h m (List.mem_cons_of_mem _ hm), List.cons_append]

/-- A character put before the first of some lines is in one of them, and the others are as before. -/
theorem mem_consLine {c : Char} {line : List Char} {ls : List (List Char)} (h : line ∈ consLine c ls) :
    line ∈ ls ∨ ∃ rest, line = c :: rest ∧ (rest = [] ∨ rest ∈ ls) := by
  cases ls with
  | nil => exact .inr ⟨[], List.mem_singleton.1 h, .inl rfl⟩
  | cons first more =>
    rcases List.mem_cons.1 h with rfl | h
    · exact .inr ⟨first, rfl, .inr List.mem_cons_self⟩
    · exact .inl (List.mem_cons_of_mem _ h)

/-- A character of a line is a character of the text. -/
theorem mem_of_mem_lines {s line : List Char} (h : line ∈ lines s) {c : Char} (hc : c ∈ line) : c ∈ s := by
  induction s generalizing line with
  | nil => exact absurd h List.not_mem_nil
  | cons d s ih =>
    rw [lines] at h
    split at h
    · rcases List.mem_cons.1 h with rfl | h
      · exact absurd hc List.not_mem_nil
      · exact List.mem_cons_of_mem _ (ih h hc)
    · split at h
      · exact List.mem_cons_of_mem _ (ih h hc)
      · rcases mem_consLine h with h | ⟨rest, rfl, hrest⟩
        · exact List.mem_cons_of_mem _ (ih h hc)
        · rcases List.mem_cons.1 hc with rfl | hc
          · exact List.mem_cons_self
          · rcases hrest with rfl | hrest
            · exact absurd hc List.not_mem_nil
            · exact List.mem_cons_of_mem _ (ih hrest hc)

/-- No line of a text has a line feed in it. -/
theorem newline_not_mem_of_mem_lines {s line : List Char} (h : line ∈ lines s) : '\n' ∉ line := by
  induction s generalizing line with
  | nil => exact absurd h List.not_mem_nil
  | cons c s ih =>
    rw [lines] at h
    split at h
    · rcases List.mem_cons.1 h with rfl | h
      · exact List.not_mem_nil
      · exact ih h
    · rename_i hc
      split at h
      · exact ih h
      · rcases mem_consLine h with h | ⟨rest, rfl, hrest⟩
        · exact ih h
        · intro hm
          rcases List.mem_cons.1 hm with rfl | hm
          · exact hc rfl
          · rcases hrest with rfl | hrest
            · exact absurd hm List.not_mem_nil
            · exact ih hrest hm

/-! ## Joining lines again -/

/-- A text that is not empty has a line. -/
theorem lines_ne_nil {s : List Char} (h : s ≠ []) : lines s ≠ [] := by
  induction s with
  | nil => exact absurd rfl h
  | cons c s ih =>
    rw [lines]
    split
    · simp
    · split
      · rename_i hr
        exact ih fun e => by simp [e] at hr
      · cases lines s <;> simp [consLine]

theorem joinLines_singleton (l : List Char) : joinLines [l] = l :=
  List.intercalate_singleton

theorem joinLines_cons {ls : List (List Char)} (l : List Char) (h : ls ≠ []) :
    joinLines (l :: ls) = l ++ '\n' :: joinLines ls := by
  cases ls with
  | nil => exact absurd rfl h
  | cons m ls => simp [joinLines]

theorem joinLines_consLine (c : Char) (ls : List (List Char)) : joinLines (consLine c ls) = c :: joinLines ls := by
  cases ls with
  | nil => simp [joinLines, consLine]
  | cons l ls => cases ls <;> simp [joinLines, consLine]

/-- A text without carriage returns that does not end in a line feed is its lines joined. -/
theorem joinLines_lines {s : List Char} (hr : '\r' ∉ s) (hl : s.getLast? ≠ some '\n') : joinLines (lines s) = s := by
  induction s with
  | nil => rfl
  | cons c s ih =>
    have hr' : '\r' ∉ s := fun e => hr (List.mem_cons_of_mem _ e)
    have hl' : s.getLast? ≠ some '\n' := by
      cases s with
      | nil => simp
      | cons d s => rwa [List.getLast?_cons_cons] at hl
    rw [lines]
    split
    · rename_i hc
      have hs : s ≠ [] := fun e => hl (by rw [e, hc]; rfl)
      rw [joinLines_cons _ (lines_ne_nil hs), ih hr' hl', hc]
      rfl
    · have hc : ¬(c = '\r' ∧ s.head? = some '\n') := fun e => hr (e.1 ▸ List.mem_cons_self)
      rw [if_neg hc, joinLines_consLine, ih hr' hl']

end SkillLint.Text
