import SkillLint.Text.Lines

/-!
# Runs and trimming

The longest run at the front of a text, and a text without the blanks at its ends.
-/

namespace SkillLint.Text

/-!
## Spans

A span is the longest front of a text whose characters all satisfy a predicate. It ends where the predicate fails first, and
that place is the only one at which the text can be cut into characters that satisfy the predicate and a rest that starts with
one that does not.
-/

variable {p : Char → Bool} {front rest : List Char} {c : Char}

theorem takeWhile_append_cons (hf : ∀ d ∈ front, p d = true) (hc : p c = false) :
    (front ++ c :: rest).takeWhile p = front := by
  rw [List.takeWhile_append_of_pos hf, List.takeWhile_cons_of_neg (by simp [hc]), List.append_nil]

theorem dropWhile_append_cons (hf : ∀ d ∈ front, p d = true) (hc : p c = false) :
    (front ++ c :: rest).dropWhile p = c :: rest := by
  rw [List.dropWhile_append_of_pos hf, List.dropWhile_cons_of_neg (by simp [hc])]

theorem dropWhile_eq_cons {s : List Char} (h : s.dropWhile p = c :: rest) :
    p c = false ∧ s = s.takeWhile p ++ c :: rest ∧ ∀ d ∈ s.takeWhile p, p d = true := by
  have hhead := List.head?_dropWhile_not p s
  rw [h] at hhead
  have hsplit : s.takeWhile p ++ s.dropWhile p = s := List.takeWhile_append_dropWhile
  rw [h] at hsplit
  exact ⟨hhead, hsplit.symm, fun d hd => List.all_eq_true.1 List.all_takeWhile d hd⟩

theorem forall_ne_of_not_mem {s : List Char} (h : c ∉ s) : ∀ d ∈ s, (d != c) = true :=
  fun _ hd => bne_iff_ne.2 fun e => h (e ▸ hd)

theorem not_mem_takeWhile_ne (s : List Char) (c : Char) : c ∉ s.takeWhile (· != c) := by
  intro h
  simpa using List.all_eq_true.1 List.all_takeWhile c h

theorem exists_dropWhile_ne {s : List Char} (h : c ∈ s) : ∃ rest, s.dropWhile (· != c) = c :: rest := by
  cases hd : s.dropWhile (· != c) with
  | nil =>
    have hsplit : s.takeWhile (· != c) ++ s.dropWhile (· != c) = s := List.takeWhile_append_dropWhile
    rw [hd, List.append_nil] at hsplit
    exact absurd (hsplit.symm ▸ h) (not_mem_takeWhile_ne s c)
  | cons d rest =>
    obtain ⟨hc, -, -⟩ := dropWhile_eq_cons hd
    exact ⟨rest, by rw [show d = c by simpa using hc]⟩

/-- A front of a text with more behind it is a front of the text when it is not longer than that. -/
theorem exists_of_append_eq_append {α : Type} {s more front rest : List α} (h : s ++ more = front ++ rest)
    (hle : front.length ≤ s.length) : ∃ middle, s = front ++ middle ∧ rest = middle ++ more := by
  rcases List.append_eq_append_iff.1 h with ⟨part, rfl, rfl⟩ | ⟨middle, rfl, rfl⟩
  · have hpart : part = [] := List.eq_nil_of_length_eq_zero (by rw [List.length_append] at hle; omega)
    exact ⟨[], by rw [hpart, List.append_nil, List.append_nil], by rw [hpart]; rfl⟩
  · exact ⟨middle, rfl, rfl⟩

/-!
## Trimmed texts

What trimming leaves: every text is its trimmed form with blanks around it, and a part without blanks at its ends that has
only blanks around it is the trimmed form. From these two facts follow the equations for blanks put before or behind a text.
-/

theorem dropTrailing_append_of_all {p : Char → Bool} (s : List Char) {post : List Char} (h : ∀ c ∈ post, p c = true) :
    dropTrailing p (s ++ post) = dropTrailing p s := by
  have hr : ∀ c ∈ post.reverse, p c = true := fun c hc => h c (List.mem_reverse.1 hc)
  rw [dropTrailing, List.reverse_append, List.dropWhile_append_of_pos hr, dropTrailing]

/-- Nothing is dropped from the end of a text whose last character is not to be dropped. -/
theorem dropTrailing_of_getLast? {p : Char → Bool} {s : List Char} (h : ∀ c ∈ s.getLast?, p c = false) :
    dropTrailing p s = s := by
  rw [dropTrailing]
  cases hr : s.reverse with
  | nil =>
    rw [List.reverse_eq_nil_iff.1 hr]
    rfl
  | cons c rest =>
    have hc : c ∈ s.getLast? := by
      rw [← List.head?_reverse, hr]
      rfl
    rw [List.dropWhile_cons_of_neg (by simp [h c hc]), ← hr, List.reverse_reverse]

theorem exists_dropTrailing_append (p : Char → Bool) (s : List Char) :
    ∃ post, s = dropTrailing p s ++ post ∧ ∀ c ∈ post, p c = true := by
  refine ⟨(s.reverse.takeWhile p).reverse, ?_, fun c hc => List.all_eq_true.1 List.all_takeWhile c (List.mem_reverse.1 hc)⟩
  rw [dropTrailing, ← List.reverse_append, List.takeWhile_append_dropWhile, List.reverse_reverse]

/-- The last character that is left when trailing characters are dropped is not one to be dropped. -/
theorem getLast_dropTrailing (p : Char → Bool) (s : List Char) : ∀ c ∈ (dropTrailing p s).getLast?, p c = false := by
  intro c hc
  have hhead := List.head?_dropWhile_not p s.reverse
  rw [dropTrailing, List.getLast?_reverse] at hc
  rw [Option.mem_def.1 hc] at hhead
  exact hhead

theorem exists_blanks_append_trimStart (s : List Char) :
    ∃ pre, s = pre ++ trimStart s ∧ ∀ c ∈ pre, isBlank c = true :=
  ⟨s.takeWhile isBlank, List.takeWhile_append_dropWhile.symm, fun _ hc => List.all_eq_true.1 List.all_takeWhile _ hc⟩

theorem exists_trimEnd_append_blanks (s : List Char) :
    ∃ post, s = trimEnd s ++ post ∧ ∀ c ∈ post, isBlank c = true :=
  exists_dropTrailing_append isBlank s

/-- A text is its trimmed form with blanks around it. -/
theorem exists_blanks_around_trim (s : List Char) :
    ∃ pre post, s = pre ++ (trim s ++ post) ∧ (∀ c ∈ pre, isBlank c = true) ∧ ∀ c ∈ post, isBlank c = true := by
  obtain ⟨pre, hs, hp⟩ := exists_blanks_append_trimStart s
  obtain ⟨post, ht, hq⟩ := exists_trimEnd_append_blanks (trimStart s)
  exact ⟨pre, post, hs.trans (congrArg (pre ++ ·) ht), hp, hq⟩

/-- Trimming starts with the leading blanks, so blanks before a text do not show. -/
theorem trim_append_of_blanks {pre : List Char} (h : ∀ c ∈ pre, isBlank c = true) (s : List Char) :
    trim (pre ++ s) = trim s := by
  rw [trim, trimStart, List.dropWhile_append_of_pos h, trim, trimStart]

/-- Blanks behind a text do not show once it is trimmed. -/
theorem trim_append_blanks (s : List Char) {post : List Char} (h : ∀ c ∈ post, isBlank c = true) :
    trim (s ++ post) = trim s := by
  have hd : trimStart post = [] := by
    have hp : (post ++ []).dropWhile isBlank = [].dropWhile isBlank := List.dropWhile_append_of_pos h
    rwa [List.append_nil] at hp
  rw [trim, trim, trimStart, List.dropWhile_append]
  split
  · rename_i hs
    rw [trimStart, List.isEmpty_iff.1 hs, ← trimStart, hd]
  · exact dropTrailing_append_of_all _ h

theorem trim_cons_of_blank {c : Char} (h : isBlank c = true) (s : List Char) : trim (c :: s) = trim s := by
  have hc : ∀ d ∈ [c], isBlank d = true := by simpa using h
  exact trim_append_of_blanks hc s

theorem trim_of_blanks {s : List Char} (h : ∀ c ∈ s, isBlank c = true) : trim s = [] := by
  have := trim_append_of_blanks h []
  rwa [List.append_nil] at this

/-- A text between two characters that are not blank has no blanks at its ends. -/
theorem trim_enclosed {first last : Char} (hf : isBlank first = false) (hl : isBlank last = false) (s : List Char) :
    trim (first :: (s ++ [last])) = first :: (s ++ [last]) := by
  refine trim_of_ends (fun c hc => Option.some.inj hc ▸ hf) fun c hc => ?_
  rw [List.getLast?_cons_of_ne_nil (by simp), List.getLast?_concat] at hc
  exact Option.some.inj hc ▸ hl

/-- A character that is not blank survives trimming. -/
theorem mem_trim_iff {c : Char} (hc : isBlank c = false) (s : List Char) : c ∈ trim s ↔ c ∈ s := by
  obtain ⟨pre, post, hs, hp, hq⟩ := exists_blanks_around_trim s
  have h1 : c ∉ pre := fun h => by simp [hp c h] at hc
  have h2 : c ∉ post := fun h => by simp [hq c h] at hc
  constructor
  · intro h
    rw [hs]
    exact List.mem_append_right _ (List.mem_append_left _ h)
  · intro h
    rw [hs] at h
    rcases List.mem_append.1 h with h | h
    · exact absurd h h1
    · rcases List.mem_append.1 h with h | h
      · exact h
      · exact absurd h h2

/-- A text that does not start with a blank is its trimmed form with blanks behind it. -/
theorem exists_trim_append_blanks {s : List Char} (h : ∀ c ∈ s.head?, isBlank c = false) :
    ∃ post, s = trim s ++ post ∧ ∀ c ∈ post, isBlank c = true := by
  have hs : trimStart s = s := by
    cases s with
    | nil => rfl
    | cons c r => rw [trimStart, List.dropWhile_cons_of_neg (by simp [h c rfl])]
  have := exists_trimEnd_append_blanks s
  rwa [trim, hs]

theorem isBlankText_iff {s : List Char} : isBlankText s = true ↔ ∀ c ∈ s, isBlank c = true := by
  rw [isBlankText, List.isEmpty_iff]
  refine ⟨fun h c hc => ?_, trim_of_blanks⟩
  cases hb : isBlank c with
  | true => rfl
  | false => exact absurd ((mem_trim_iff hb s).2 hc) (by simp [h])

end SkillLint.Text
