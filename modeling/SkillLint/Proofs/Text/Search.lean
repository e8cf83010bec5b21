import SkillLint.Text.Word

/-!
# What a search finds

Every match was read at the position that it is reported at, and the matches come one behind the other without overlap. A
search that passes a text is the search of the rest, from the position behind the text. Putting more behind a text leaves what is
found in it as it is up to a match that crosses the end of the text (`occurrencesFrom_append`).
-/

namespace SkillLint.Text

variable {α : Type} {r : Recogniser α}

/-! ## Going through a text -/

theorem getLast?_cons_or (c : Char) (front : List Char) (before : Option Char) :
    (c :: front).getLast?.or before = front.getLast?.or (some c) := by
  rw [List.getLast?_cons]
  cases front.getLast? <;> rfl

/-- Characters that belong to an earlier match are passed over. -/
theorem occurrencesFrom_skip (before : Option Char) (position : Nat) (front s : List Char) :
    occurrencesFrom r before front.length position (front ++ s) =
      occurrencesFrom r (front.getLast?.or before) 0 (position + front.length) s := by
  induction front generalizing before position with
  | nil => rfl
  | cons c front ih =>
    rw [List.length_cons, List.cons_append, occurrencesFrom, ih, getLast?_cons_or, Nat.add_assoc, Nat.add_comm 1]

/-- A match at the front of a text is found, and the search goes on behind it. -/
theorem occurrencesFrom_of_match {before : Option Char} {front s : List Char} {a : α} (hne : front ≠ [])
    (h : r before (front ++ s) = some (a, front.length)) (position : Nat) :
    occurrencesFrom r before 0 position (front ++ s) =
      ⟨position, a⟩ :: occurrencesFrom r (front.getLast?.or before) 0 (position + front.length) s := by
  obtain ⟨c, front, rfl⟩ := List.exists_cons_of_ne_nil hne
  rw [List.cons_append] at h
  have hend : position + (front.length + 1) = position + 1 + front.length := by omega
  rw [List.cons_append, occurrencesFrom, h, getLast?_cons_or, List.length_cons, hend, ← occurrencesFrom_skip]
  rfl

theorem occurrencesFrom_of_no_match {before : Option Char} {c : Char} {s : List Char} (h : r before (c :: s) = none)
    (position : Nat) :
    occurrencesFrom r before 0 position (c :: s) = occurrencesFrom r (some c) 0 (position + 1) s := by
  rw [occurrencesFrom, h]

/-! ## Matches -/

/-- What is found was read somewhere in the text, behind the characters to skip. -/
theorem exists_of_mem_occurrencesFrom {before : Option Char} {skip position : Nat} {s : List Char} {o : Occurrence α}
    (h : o ∈ occurrencesFrom r before skip position s) :
    ∃ front rest previous size, s = front ++ rest ∧ skip ≤ front.length ∧ o.start = position + front.length ∧
      r previous rest = some (o.found, size) := by
  induction s generalizing before skip position with
  | nil => exact absurd h (by simp [occurrencesFrom])
  | cons c s ih =>
    have hlater : ∀ {n}, o ∈ occurrencesFrom r (some c) n (position + 1) s → skip ≤ n + 1 →
        ∃ front rest previous size, c :: s = front ++ rest ∧ skip ≤ front.length ∧ o.start = position + front.length ∧
          r previous rest = some (o.found, size) := fun {n} hm hn => by
      obtain ⟨front, rest, previous, size, rfl, hlen, hstart, hread⟩ := ih hm
      exact ⟨c :: front, rest, previous, size, rfl, by rw [List.length_cons]; omega,
        by rw [List.length_cons]; omega, hread⟩
    cases skip with
    | succ skip =>
      rw [occurrencesFrom] at h
      exact hlater h (Nat.le_refl _)
    | zero =>
      rw [occurrencesFrom] at h
      split at h
      · rename_i a size hread
        rcases List.mem_cons.1 h with rfl | h
        · exact ⟨[], c :: s, before, size, rfl, Nat.le_refl _, rfl, hread⟩
        · exact hlater h (Nat.zero_le _)
      · exact hlater h (Nat.zero_le _)

theorem exists_of_mem_occurrences {s : List Char} {o : Occurrence α} (h : o ∈ occurrences r s) :
    ∃ front rest previous size, s = front ++ rest ∧ o.start = front.length ∧ r previous rest = some (o.found, size) := by
  obtain ⟨front, rest, previous, size, hs, -, hstart, hread⟩ := exists_of_mem_occurrencesFrom h
  exact ⟨front, rest, previous, size, hs, by omega, hread⟩

/-- A match and a later one: the match was read where it starts, and the later one starts behind the end of it. -/
def Precedes (r : Recogniser α) (position : Nat) (s : List Char) (o later : Occurrence α) : Prop :=
  ∃ front rest previous size, s = front ++ rest ∧ o.start = position + front.length ∧
    r previous rest = some (o.found, size) ∧ o.start + size ≤ later.start

theorem Precedes.cons {position : Nat} {s : List Char} {o later : Occurrence α} (c : Char)
    (h : Precedes r (position + 1) s o later) : Precedes r position (c :: s) o later := by
  obtain ⟨front, rest, previous, size, rfl, hstart, hread, hle⟩ := h
  exact ⟨c :: front, rest, previous, size, rfl, by rw [List.length_cons]; omega, hread, hle⟩

/-- Matches come one behind the other. -/
theorem pairwise_precedes (before : Option Char) (skip position : Nat) (s : List Char) :
    (occurrencesFrom r before skip position s).Pairwise (Precedes r position s) := by
  induction s generalizing before skip position with
  | nil => simp [occurrencesFrom]
  | cons c s ih =>
    cases skip with
    | succ skip =>
      rw [occurrencesFrom]
      exact (ih _ _ _).imp (Precedes.cons c)
    | zero =>
      rw [occurrencesFrom]
      split
      · rename_i a size hread
        refine List.pairwise_cons.2 ⟨fun later hl => ?_, (ih _ _ _).imp (Precedes.cons c)⟩
        obtain ⟨front, -, -, -, -, hskip, hstart, -⟩ := exists_of_mem_occurrencesFrom hl
        refine ⟨[], c :: s, before, size, rfl, rfl, hread, ?_⟩
        rw [hstart]
        simp only
        omega
      · exact (ih _ _ _).imp (Precedes.cons c)

/-- Matches come one behind the other, each behind the end of those before it. -/
theorem pairwise_occurrencesFrom {reach : α → Nat} (hr : ∀ before s a size, r before s = some (a, size) → reach a ≤ size)
    (before : Option Char) (skip position : Nat) (s : List Char) :
    (occurrencesFrom r before skip position s).Pairwise fun o later => o.start + reach o.found ≤ later.start := by
  refine (pairwise_precedes before skip position s).imp ?_
  rintro o later ⟨_, _, _, size, _, _, hread, hle⟩
  have hreach := hr _ _ _ _ hread
  omega

/-! ## Longer texts -/

/-- Putting more behind a text changes what is read at a place of the text only to what ends behind the text. -/
structure IsStable (r : Recogniser α) (more : List Char) : Prop where
  /-- What is read is a front of the text. -/
  size_le : ∀ before s a size, r before s = some (a, size) → size ≤ s.length
  keeps : ∀ before s, s ≠ [] →
    r before (s ++ more) = r before s ∨ ∃ a size, r before (s ++ more) = some (a, size) ∧ s.length < size

/-- A recogniser is stable when it reads something with more behind a text wherever it reads something in the text, and reads the
same when what it reads ends in the text. -/
theorem isStable_of_reads {more : List Char} (hs : ∀ before s a size, r before s = some (a, size) → size ≤ s.length)
    (hextend : ∀ before s found, r before s = some found → ∃ found', r before (s ++ more) = some found')
    (hrestrict : ∀ before s a size, r before (s ++ more) = some (a, size) → size ≤ s.length → r before s = some (a, size)) :
    IsStable r more where
  size_le := hs
  keeps := by
    intro before s _
    cases hlong : r before (s ++ more) with
    | none =>
      refine .inl (Option.eq_none_iff_forall_not_mem.2 fun found hfound => ?_).symm
      obtain ⟨found', hfound'⟩ := hextend before s found hfound
      rw [hlong] at hfound'
      exact absurd hfound' (by simp)
    | some found =>
      obtain ⟨a, size⟩ := found
      rcases Nat.lt_or_ge s.length size with hlt | hle
      · exact .inr ⟨a, size, rfl, hlt⟩
      · exact .inl (hrestrict before s a size hlong hle).symm

/-- A match in a text with more behind it begins in the text and ends behind it. -/
def Crosses (r : Recogniser α) (position : Nat) (s more : List Char) (o : Occurrence α) : Prop :=
  ∃ front rest previous size, s = front ++ rest ∧ rest ≠ [] ∧ o.start = position + front.length ∧
    r previous (rest ++ more) = some (o.found, size) ∧ rest.length < size

theorem Crosses.cons {position : Nat} {s more : List Char} {o : Occurrence α} (c : Char)
    (h : Crosses r (position + 1) s more o) : Crosses r position (c :: s) more o := by
  obtain ⟨front, rest, previous, size, rfl, hne, hstart, hread, hlt⟩ := h
  exact ⟨c :: front, rest, previous, size, rfl, hne, by rw [List.length_cons]; omega, hread, hlt⟩

/-- With more behind a text the same is found in it, and then what is found behind it, unless a match crosses its end: then
what starts before that match is found, then that match. -/
theorem occurrencesFrom_append {more : List Char} (hr : IsStable r more) (before : Option Char) {skip : Nat} (position : Nat)
    {s : List Char} (hskip : skip ≤ s.length) :
    occurrencesFrom r before skip position (s ++ more) = occurrencesFrom r before skip position s ++
        occurrencesFrom r (s.getLast?.or before) 0 (position + s.length) more ∨
      ∃ kept lost o behind, occurrencesFrom r before skip position s = kept ++ lost ∧
        occurrencesFrom r before skip position (s ++ more) = kept ++ o :: behind ∧ Crosses r position s more o ∧
        ∀ l ∈ lost, o.start ≤ l.start := by
  induction s generalizing before skip position with
  | nil =>
    obtain rfl : skip = 0 := Nat.le_zero.1 hskip
    exact .inl (by simp [occurrencesFrom])
  | cons c s ih =>
    have hlater : ∀ (found : List (Occurrence α)) {n : Nat}, n ≤ s.length →
        found ++ occurrencesFrom r (some c) n (position + 1) (s ++ more) =
            (found ++ occurrencesFrom r (some c) n (position + 1) s) ++
              occurrencesFrom r ((c :: s).getLast?.or before) 0 (position + (c :: s).length) more ∨
          ∃ kept lost o behind, found ++ occurrencesFrom r (some c) n (position + 1) s = kept ++ lost ∧
            found ++ occurrencesFrom r (some c) n (position + 1) (s ++ more) = kept ++ o :: behind ∧
            Crosses r position (c :: s) more o ∧ ∀ l ∈ lost, o.start ≤ l.start := by
      intro found n hn
      have hend : position + (c :: s).length = position + 1 + s.length := by rw [List.length_cons]; omega
      rw [getLast?_cons_or, hend]
      rcases ih (some c) (position + 1) hn with h | ⟨kept, lost, o, behind, hs, hlong, hcross, hlost⟩
      · exact .inl (by rw [h, List.append_assoc])
      · exact .inr ⟨found ++ kept, lost, o, behind, by rw [hs, List.append_assoc], by rw [hlong, List.append_assoc],
          hcross.cons c, hlost⟩
    cases skip with
    | succ skip =>
      rw [List.cons_append, occurrencesFrom, occurrencesFrom]
      exact hlater [] (Nat.le_of_succ_le_succ hskip)
    | zero =>
      rcases hr.keeps before (c :: s) (List.cons_ne_nil c s) with hkeep | ⟨a, size, hread, hlt⟩
      · rw [List.cons_append] at hkeep ⊢
        rw [occurrencesFrom, occurrencesFrom, hkeep]
        cases hread : r before (c :: s) with
        | none => exact hlater [] (Nat.zero_le _)
        | some found =>
          obtain ⟨a, size⟩ := found
          have hsize := hr.size_le _ _ _ _ hread
          exact hlater [⟨position, a⟩] (by rw [List.length_cons] at hsize; omega)
      · refine .inr ⟨[], occurrencesFrom r before 0 position (c :: s), ⟨position, a⟩,
          occurrencesFrom r (some c) (size - 1) (position + 1) (s ++ more), rfl, ?_,
          ⟨[], c :: s, before, size, rfl, List.cons_ne_nil c s, rfl, hread, hlt⟩, fun l hl => ?_⟩
        · rw [List.cons_append] at hread ⊢
          rw [occurrencesFrom, hread]
          rfl
        · obtain ⟨front, -, -, -, -, -, hstart, -⟩ := exists_of_mem_occurrencesFrom hl
          exact hstart ▸ Nat.le_add_right _ _

/-- A character that no match reaches changes nothing at the end of a text. -/
theorem occurrences_concat {c : Char} (hr : IsStable r [c])
    (hc : ∀ before s a size, r before (s ++ [c]) = some (a, size) → 0 < size ∧ size ≤ s.length) (s : List Char) :
    occurrences r (s ++ [c]) = occurrences r s := by
  rcases occurrencesFrom_append hr none 0 (Nat.zero_le s.length) with h | ⟨-, -, o, -, -, -, hcross, -⟩
  · have hnone : r (s.getLast?.or none) [c] = none := by
      cases hread : r (s.getLast?.or none) [c] with
      | none => rfl
      | some found =>
        obtain ⟨hpos, hle⟩ := hc _ [] _ _ hread
        exact absurd hle (Nat.not_le.2 hpos)
    rw [occurrences, h, occurrencesFrom_of_no_match hnone, occurrencesFrom, List.append_nil, occurrences]
  · obtain ⟨front, rest, previous, size, -, -, -, hread, hlt⟩ := hcross
    exact absurd (hc _ _ _ _ hread).2 (Nat.not_le.2 hlt)

end SkillLint.Text
