import SkillLint.Proofs.Text.Position
import SkillLint.Proofs.Text.Search

/-!
# Texts that go on

When a line feed and more are put behind a text, its lines stay the first lines, except that the last of them is ended: a
carriage return at its end now belongs to the line end, and behind a line that had ended already there is an empty one
(`ended_lines`). Joined again, the lines make a text that goes on behind the old one, but for that carriage return
(`Ended.goesOn`).
-/

namespace SkillLint.Text

/-! ## The lines of a longer text -/

/-- What a line feed behind a text makes of its lines. -/
inductive Ended : List (List Char) → List (List Char) → Prop
  /-- Behind the last line end the line feed ends an empty line. -/
  | empty : Ended [] [[]]
  /-- The last line had no line end. -/
  | same (l : List Char) : Ended [l] [l]
  /-- A carriage return at the end of the last line is part of its line end now. -/
  | carriage (l : List Char) : Ended [l ++ ['\r']] [l]
  | cons (l : List Char) {ls ended : List (List Char)} (h : Ended ls ended) : Ended (l :: ls) (l :: ended)

theorem Ended.ne_nil {ls ended : List (List Char)} (h : Ended ls ended) : ended ≠ [] := by
  cases h <;> simp

/-- A character put before the lines is put before the ended lines, unless it is a carriage return that is taken away. -/
theorem Ended.consLine (c : Char) {ls ended : List (List Char)} (h : Ended ls ended) :
    Ended (consLine c ls) (consLine c ended) := by
  cases h with
  | empty => exact .same [c]
  | same l => exact .same (c :: l)
  | carriage l => exact .carriage (c :: l)
  | cons l h => exact .cons (c :: l) h

/-- A line feed behind a text ends the last of its lines. -/
theorem ended_lines (s : List Char) : Ended (lines s) (lines (s ++ ['\n'])) := by
  induction s with
  | nil => exact .empty
  | cons c s ih =>
    rw [List.cons_append, lines, lines]
    by_cases hc : c = '\n'
    · rw [if_pos hc, if_pos hc]
      exact .cons [] ih
    · rw [if_neg hc, if_neg hc]
      cases s with
      | nil =>
        by_cases hr : c = '\r'
        · subst hr
          exact .carriage []
        · rw [if_neg (by simp [hr]), if_neg (by simp [hr])]
          exact ih.consLine c
      | cons d s =>
        rw [List.cons_append, List.head?_cons, List.head?_cons]
        split
        · exact ih
        · exact ih.consLine c

/-- What stands behind a line feed has lines of its own. -/
theorem lines_append_newline_append (s more : List Char) :
    lines (s ++ '\n' :: more) = lines (s ++ ['\n']) ++ lines more := by
  induction s with
  | nil => rw [List.nil_append, List.nil_append, lines_newline, lines_newline]; rfl
  | cons c s ih =>
    have hhead : (s ++ '\n' :: more).head? = (s ++ ['\n']).head? := by cases s <;> rfl
    rw [List.cons_append, List.cons_append, lines, lines, hhead, ih]
    split
    · rfl
    · split
      · rfl
      · obtain ⟨l, ls, he⟩ := List.exists_cons_of_ne_nil (lines_ne_nil (s := s ++ ['\n']) (by simp))
        rw [he]
        rfl

theorem mem_lines_endLines_append {line more : List Char} (h : line ∈ lines more) (ls : List (List Char)) :
    line ∈ lines (endLines ls ++ more) := by
  induction ls with
  | nil => exact h
  | cons l ls ih =>
    have htext : endLines (l :: ls) ++ more = l ++ '\n' :: (endLines ls ++ more) := by
      rw [endLines_cons, List.append_assoc, List.cons_append]
    rw [htext, lines_append_newline_append]
    exact List.mem_append_right _ ih

/-- Only the last line can have lost a carriage return when lines are ended. -/
theorem Ended.exists_of_append {front back ended : List (List Char)} {l : List Char} (h : Ended (front ++ l :: back) ended) :
    ∃ l' back', ended = front ++ l' :: back' ∧ (l = l' ∨ l = l' ++ ['\r']) ∧ (back = [] ∨ Ended back back') := by
  induction front generalizing ended with
  | nil =>
    cases h with
    | same l => exact ⟨l, [], rfl, .inl rfl, .inl rfl⟩
    | carriage l => exact ⟨l, [], rfl, .inr rfl, .inl rfl⟩
    | cons l h => exact ⟨l, _, rfl, .inl rfl, .inr h⟩
  | cons first front ih =>
    rw [List.cons_append] at h
    generalize hall : front ++ l :: back = all at h
    cases h with
    | same _ => exact absurd hall (by simp)
    | carriage _ => exact absurd hall (by simp)
    | cons _ h =>
      obtain ⟨l', back', rfl, hl, hback⟩ := ih (hall ▸ h)
      exact ⟨l', back', rfl, hl, hback⟩

/-! ## Joined lines -/

/-- A longer text goes on behind a text: it has the text in front, but for a carriage return at its end, and what it has behind
that starts with a line feed. -/
def GoesOn (s longer : List Char) : Prop :=
  ∃ front rest more, s = front ++ rest ∧ longer = front ++ more ∧ (rest = [] ∨ rest = ['\r']) ∧ ∀ c ∈ more.head?, c = '\n'

theorem goesOn_append_newline (s more : List Char) : GoesOn s (s ++ '\n' :: more) :=
  ⟨s, [], '\n' :: more, (List.append_nil s).symm, rfl, .inl rfl, by simp⟩

theorem GoesOn.append {s longer : List Char} (h : GoesOn s longer) (front : List Char) :
    GoesOn (front ++ s) (front ++ longer) := by
  obtain ⟨middle, rest, more, rfl, rfl, hrest, hmore⟩ := h
  exact ⟨front ++ middle, rest, more, by rw [List.append_assoc], by rw [List.append_assoc], hrest, hmore⟩

/-- A place of a text is on the same line of a text that goes on behind it. -/
theorem GoesOn.lineAt_eq {s longer : List Char} (h : GoesOn s longer) {position : Nat} (hp : position < s.length) :
    lineAt longer position = lineAt s position := by
  obtain ⟨front, rest, more, rfl, rfl, hrest, -⟩ := h
  have hle : position ≤ front.length := by
    rw [List.length_append] at hp
    rcases hrest with rfl | rfl
    · rw [List.length_nil] at hp
      omega
    · rw [List.length_singleton] at hp
      omega
  rw [lineAt, lineAt, List.take_append_of_le_length hle, List.take_append_of_le_length hle]

/-- A line goes on when there are lines below it. -/
theorem goesOn_joinLines_cons (l : List Char) {rest : List Char} (hrest : rest = [] ∨ rest = ['\r'])
    (more : List (List Char)) : GoesOn (l ++ rest) (joinLines (l :: more)) := by
  obtain ⟨tail, ht, htail⟩ := exists_joinLines_cons_eq l more
  refine ⟨l, rest, tail, rfl, ht, hrest, ?_⟩
  rcases htail with rfl | rfl <;> simp

/-- Joined lines go on when they are ended and there are lines below them. -/
theorem Ended.goesOn {ls ended : List (List Char)} (h : Ended ls ended) (more : List (List Char)) :
    GoesOn (joinLines ls) (joinLines (ended ++ more)) := by
  induction h with
  | empty => exact goesOn_joinLines_cons [] (.inl rfl) more
  | same l =>
    have hl := goesOn_joinLines_cons l (.inl rfl) more
    rw [List.append_nil] at hl
    rw [joinLines_singleton]
    exact hl
  | carriage l =>
    rw [joinLines_singleton]
    exact goesOn_joinLines_cons l (.inr rfl) more
  | @cons l ls ended h ih =>
    have hne : ended ++ more ≠ [] := List.append_ne_nil_of_left_ne_nil h.ne_nil more
    rw [List.cons_append, joinLines_cons l hne]
    by_cases hls : ls = []
    · rw [hls, joinLines_singleton]
      exact goesOn_append_newline l _
    · rw [joinLines_cons l hls]
      exact (ih.append ['\n']).append l

/-! ## Searching -/

/-- What is found in a text that goes on is found in the part of it that stays, if no match reaches a carriage return at the end of
a text. -/
theorem GoesOn.exists_front {α : Type} {r : Recogniser α} {s longer : List Char} (h : GoesOn s longer)
    (hr : IsStable r ['\r'])
    (hreturn : ∀ before s a size, r before (s ++ ['\r']) = some (a, size) → 0 < size ∧ size ≤ s.length) :
    ∃ front rest more, s = front ++ rest ∧ longer = front ++ more ∧ rest.length ≤ 1 ∧ (∀ c ∈ more.head?, c = '\n') ∧
      occurrences r s = occurrences r front := by
  obtain ⟨front, rest, more, rfl, rfl, hrest, hmore⟩ := h
  refine ⟨front, rest, more, rfl, rfl, ?_, hmore, ?_⟩
  · rcases hrest with rfl | rfl <;> simp
  · rcases hrest with rfl | rfl
    · rw [List.append_nil]
    · exact occurrences_concat hr hreturn front

end SkillLint.Text
