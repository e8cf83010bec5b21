import SkillLint.Proofs.Text.Lines
import SkillLint.Proofs.Text.Trim

/-!
# Joined texts

Texts with a separator between them: their characters, their ends and their length. A flattened text is its words with single
spaces between them, so that it has no other blanks, none at its ends, and no more characters than the text.
-/

namespace SkillLint.Text

/-- A character of joined texts is one of the separator or of one of the texts. -/
theorem mem_intercalate {sep : List Char} {ts : List (List Char)} {c : Char} (h : c ∈ sep.intercalate ts) :
    c ∈ sep ∨ ∃ t ∈ ts, c ∈ t := by
  induction ts with
  | nil => simp at h
  | cons t ts ih =>
    by_cases hts : ts = []
    · subst hts
      rw [List.intercalate_singleton] at h
      exact .inr ⟨t, List.mem_cons_self, h⟩
    · rw [List.intercalate_cons_of_ne_nil hts] at h
      simp only [List.mem_append] at h
      rcases h with (h | h) | h
      · exact .inr ⟨t, List.mem_cons_self, h⟩
      · exact .inl h
      · rcases ih h with h | ⟨u, hu, hc⟩
        · exact .inl h
        · exact .inr ⟨u, List.mem_cons_of_mem _ hu, hc⟩

/-- Characters are replaced in joined texts where they are in the separator and in the texts. -/
theorem map_intercalate (f : Char → Char) (sep : List Char) (ts : List (List Char)) :
    (sep.intercalate ts).map f = (sep.map f).intercalate (ts.map (List.map f)) := by
  induction ts with
  | nil => rfl
  | cons t ts ih =>
    by_cases hts : ts = []
    · subst hts
      simp
    · have hmap : ts.map (List.map f) ≠ [] := fun e => hts (List.map_eq_nil_iff.1 e)
      rw [List.intercalate_cons_of_ne_nil hts, List.map_append, List.map_append, ih, List.map_cons,
        List.intercalate_cons_of_ne_nil hmap]

theorem head?_intercalate_cons (sep : List Char) {t : List Char} (h : t ≠ []) (ts : List (List Char)) :
    (sep.intercalate (t :: ts)).head? = t.head? := by
  obtain ⟨c, rest, rfl⟩ := List.exists_cons_of_ne_nil h
  by_cases hts : ts = []
  · rw [hts, List.intercalate_singleton]
  · rw [List.intercalate_cons_of_ne_nil hts]
    rfl

/-- Joined texts end like the last of them, so that what holds of the last character of each holds of the last character. -/
theorem getLast_intercalate (sep : List Char) {ts : List (List Char)} {p : Char → Prop} (hne : ∀ t ∈ ts, t ≠ [])
    (hp : ∀ t ∈ ts, ∀ c ∈ t.getLast?, p c) : ∀ c ∈ (sep.intercalate ts).getLast?, p c := by
  induction ts with
  | nil => simp
  | cons t ts ih =>
    cases ts with
    | nil =>
      rw [List.intercalate_singleton]
      exact hp t List.mem_cons_self
    | cons u ts =>
      have hu : u ≠ [] := hne u (by simp)
      have hl : (sep.intercalate (t :: u :: ts)).getLast? = (sep.intercalate (u :: ts)).getLast? := by
        rw [List.intercalate_cons_of_ne_nil (by simp), List.getLast?_append]
        cases hg : (sep.intercalate (u :: ts)).getLast? with
        | none =>
          have := head?_intercalate_cons sep hu ts
          rw [List.getLast?_eq_none_iff.1 hg] at this
          exact absurd (List.head?_eq_none_iff.1 this.symm) hu
        | some c => rfl
      rw [hl]
      exact ih (fun v hv => hne v (List.mem_cons_of_mem _ hv)) fun v hv => hp v (List.mem_cons_of_mem _ hv)

/-- Texts with single characters between them have one character less than the same texts as lines. -/
theorem length_intercalate_singleton (c : Char) (ts : List (List Char)) :
    ([c].intercalate ts).length = (endLines ts).length - 1 := by
  induction ts with
  | nil => rfl
  | cons t ts ih =>
    rw [endLines_cons]
    by_cases hts : ts = []
    · simp [hts, endLines]
    · have hpos : 0 < (endLines ts).length := by
        obtain ⟨u, us, rfl⟩ := List.exists_cons_of_ne_nil hts
        rw [endLines_cons, List.length_append, List.length_cons]
        omega
      rw [List.intercalate_cons_of_ne_nil hts, List.length_append, List.length_append, ih]
      simp only [List.length_append, List.length_cons, List.length_nil]
      omega

/-! ## Flattened texts -/

/-- A piece of a text consists of characters of the text that do not separate pieces. -/
theorem mem_splitOnP {p : Char → Bool} {s piece : List Char} (h : piece ∈ s.splitOnP p) :
    ∀ c ∈ piece, c ∈ s ∧ p c = false := by
  induction s generalizing piece with
  | nil =>
    rw [List.splitOnP_nil, List.mem_singleton] at h
    simp [h]
  | cons d s ih =>
    rw [List.splitOnP_cons_eq_if_modifyHead] at h
    intro c hc
    have htail : ∀ {more}, more ∈ s.splitOnP p → c ∈ more → c ∈ d :: s ∧ p c = false := fun hm hcm =>
      ⟨List.mem_cons_of_mem _ (ih hm c hcm).1, (ih hm c hcm).2⟩
    split at h
    · rcases List.mem_cons.1 h with rfl | h
      · exact absurd hc List.not_mem_nil
      · exact htail h hc
    · rename_i hd
      obtain ⟨first, more, hs⟩ := List.exists_cons_of_ne_nil (List.splitOnP_ne_nil p s)
      rw [hs, List.modifyHead_cons] at h
      rcases List.mem_cons.1 h with rfl | h
      · rcases List.mem_cons.1 hc with rfl | hc
        · exact ⟨List.mem_cons_self, by simpa using hd⟩
        · exact htail (hs ▸ List.mem_cons_self) hc
      · exact htail (hs ▸ List.mem_cons_of_mem _ h) hc

/-- The pieces of a text, as lines, have one character more than the text. -/
theorem length_endLines_splitOnP (p : Char → Bool) (s : List Char) : (endLines (s.splitOnP p)).length = s.length + 1 := by
  induction s with
  | nil => rfl
  | cons d s ih =>
    rw [List.splitOnP_cons_eq_if_modifyHead]
    split
    · rw [endLines_cons, List.nil_append, List.length_cons, ih, List.length_cons]
    · obtain ⟨first, more, hs⟩ := List.exists_cons_of_ne_nil (List.splitOnP_ne_nil p s)
      rw [hs, endLines_cons, List.length_append] at ih
      rw [hs, List.modifyHead_cons, endLines_cons, List.length_append]
      simp only [List.length_cons] at ih ⊢
      omega

/-- Leaving out some of the texts leaves out their lines. -/
theorem length_endLines_filter_le (q : List Char → Bool) (ts : List (List Char)) :
    (endLines (ts.filter q)).length ≤ (endLines ts).length := by
  induction ts with
  | nil => exact Nat.le_refl _
  | cons t ts ih =>
    rw [List.filter_cons]
    split
    · rw [endLines_cons, endLines_cons, List.length_append, List.length_append, List.length_cons, List.length_cons]
      omega
    · rw [endLines_cons, List.length_append, List.length_cons]
      omega

theorem words_spec {s w : List Char} (h : w ∈ words s) : w ≠ [] ∧ ∀ c ∈ w, c ∈ s ∧ isBlank c = false := by
  obtain ⟨hm, hne⟩ := List.mem_filter.1 h
  exact ⟨by simpa using hne, mem_splitOnP hm⟩

theorem mem_flatten {s : List Char} {c : Char} (h : c ∈ flatten s) : c = ' ' ∨ (c ∈ s ∧ isBlank c = false) := by
  rcases mem_intercalate h with h | ⟨w, hw, hc⟩
  · exact .inl (List.mem_singleton.1 h)
  · exact .inr ((words_spec hw).2 c hc)

/-- A flattened text is trimmed. -/
theorem trim_flatten (s : List Char) : trim (flatten s) = flatten s := by
  refine trim_of_ends ?_ (getLast_intercalate [' '] (fun w hw => (words_spec hw).1) fun w hw c hc => ?_)
  · cases hw : words s with
    | nil => simp [flatten, hw]
    | cons w ws =>
      have hm : w ∈ words s := hw ▸ List.mem_cons_self
      rw [flatten, hw, head?_intercalate_cons [' '] (words_spec hm).1]
      exact fun c hc => ((words_spec hm).2 c (List.mem_of_mem_head? hc)).2
  · exact ((words_spec hw).2 c (List.mem_of_mem_getLast? hc)).2

theorem length_flatten_le (s : List Char) : (flatten s).length ≤ s.length := by
  have hall := length_endLines_splitOnP isBlank s
  have hle : (endLines (words s)).length ≤ (endLines (s.splitOnP isBlank)).length :=
    length_endLines_filter_le _ _
  rw [flatten, length_intercalate_singleton]
  omega

end SkillLint.Text
