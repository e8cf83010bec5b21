import SkillLint.Proofs.Text.Search

/-!
# Which matches a search finds

A place of a text is given by the text before it and the text from it on. What a search finds first is the match at the leftmost
place that has one (`head?_occurrences_eq_some_iff`). Behind a match the search goes on at its end; when no match begins inside
another one, nothing is lost by that, and the search finds the matches at all places (`mem_occurrences_iff`).
-/

namespace SkillLint.Text

variable {α : Type} {r : Recogniser α} {before : Option Char} {c : Char} {s : List Char} {o : Occurrence α}

/-- A place of a text is the front of it, or a place behind its first character. -/
theorem exists_place_cons_iff {p : List Char → List Char → Prop} : (∃ front rest, c :: s = front ++ rest ∧ p front rest) ↔
    p [] (c :: s) ∨ ∃ front rest, s = front ++ rest ∧ p (c :: front) rest := by
  constructor
  · rintro ⟨front, rest, he, hp⟩
    cases front with
    | nil =>
      rw [List.nil_append] at he
      exact .inl (he ▸ hp)
    | cons d front =>
      obtain ⟨rfl, rfl⟩ := List.cons.inj he
      exact .inr ⟨front, rest, rfl, hp⟩
  · rintro (hp | ⟨front, rest, rfl, hp⟩)
    · exact ⟨[], c :: s, rfl, hp⟩
    · exact ⟨c :: front, rest, rfl, hp⟩

/-- The recogniser reads something at a place of a text, given the character before the text. -/
def ReadsAt (r : Recogniser α) (before : Option Char) (front rest : List Char) (a : α) : Prop :=
  rest ≠ [] ∧ ∃ size, r (front.getLast?.or before) rest = some (a, size)

theorem readsAt_nil_iff {a : α} : ReadsAt r before [] (c :: s) a ↔ ∃ size, r before (c :: s) = some (a, size) := by
  simp [ReadsAt]

theorem readsAt_cons_iff {front rest : List Char} {a : α} :
    ReadsAt r before (c :: front) rest a ↔ ReadsAt r (some c) front rest a := by
  rw [ReadsAt, ReadsAt, getLast?_cons_or]

theorem any_before_eq_false_iff {kind : Char → Bool} {front : List Char} :
    (front.getLast?.or none).any kind = false ↔ ∀ c ∈ front.getLast?, kind c = false := by
  rw [Option.or_none]
  exact Option.any_eq_false _ _

/-! ## The leftmost match -/

/-- Nothing is found when nothing is read at any place. -/
theorem occurrencesFrom_eq_nil_iff {position : Nat} : occurrencesFrom r before 0 position s = [] ↔
    ¬∃ front rest, s = front ++ rest ∧ ∃ a, ReadsAt r before front rest a := by
  induction s generalizing before position with
  | nil => simp [occurrencesFrom, ReadsAt]
  | cons c s ih =>
    simp only [exists_place_cons_iff, readsAt_nil_iff, readsAt_cons_iff, not_or]
    cases hread : r before (c :: s) with
    | some found =>
      obtain ⟨a, size⟩ := found
      simp [occurrencesFrom, hread]
    | none =>
      rw [occurrencesFrom_of_no_match hread, ih]
      simp

/-- What is found first is read at the leftmost place at which something is read. -/
theorem head?_occurrencesFrom_eq_some_iff {position : Nat} : (occurrencesFrom r before 0 position s).head? = some o ↔
    ∃ front rest, s = front ++ rest ∧ ReadsAt r before front rest o.found ∧ o.start = position + front.length ∧
      ∀ front' rest', s = front' ++ rest' → front'.length < front.length → ∀ a, ¬ReadsAt r before front' rest' a := by
  induction s generalizing before position with
  | nil => simp [occurrencesFrom, ReadsAt]
  | cons c s ih =>
    rw [exists_place_cons_iff]
    cases hread : r before (c :: s) with
    | some found =>
      obtain ⟨a, size⟩ := found
      have hfront : ReadsAt r before [] (c :: s) a := readsAt_nil_iff.2 ⟨size, hread⟩
      rw [occurrencesFrom, hread, List.head?_cons, Option.some.injEq]
      constructor
      · rintro rfl
        exact .inl ⟨hfront, rfl, fun front' rest' _ hlt => absurd hlt (Nat.not_lt_zero front'.length)⟩
      · rintro (⟨hat, hstart, -⟩ | ⟨front, rest, -, -, -, hleft⟩)
        · obtain ⟨size', hread'⟩ := readsAt_nil_iff.1 hat
          rw [hread] at hread'
          obtain ⟨ha, -⟩ := Prod.mk.inj (Option.some.inj hread')
          obtain ⟨start, found⟩ := o
          rw [Occurrence.mk.injEq]
          exact ⟨hstart.symm, ha⟩
        · exact absurd hfront (hleft [] (c :: s) rfl (Nat.succ_pos front.length) a)
    | none =>
      have hfront : ∀ a, ¬ReadsAt r before [] (c :: s) a := fun a ha => by
        obtain ⟨size, hread'⟩ := readsAt_nil_iff.1 ha
        rw [hread] at hread'
        exact absurd hread' (by simp)
      rw [occurrencesFrom_of_no_match hread, ih]
      constructor
      · rintro ⟨front, rest, hs, hat, hstart, hleft⟩
        refine .inr ⟨front, rest, hs, readsAt_cons_iff.2 hat, by rw [List.length_cons]; omega, ?_⟩
        intro front' rest' he hlt a ha
        cases front' with
        | nil =>
          obtain rfl : c :: s = rest' := he
          exact hfront a ha
        | cons d front' =>
          obtain ⟨rfl, hs'⟩ := List.cons.inj he
          exact hleft front' rest' hs' (Nat.lt_of_succ_lt_succ hlt) a (readsAt_cons_iff.1 ha)
      · rintro (⟨hat, -, -⟩ | ⟨front, rest, hs, hat, hstart, hleft⟩)
        · exact absurd hat (hfront o.found)
        · refine ⟨front, rest, hs, readsAt_cons_iff.1 hat, by rw [List.length_cons] at hstart; omega, ?_⟩
          intro front' rest' hs' hlt a ha
          exact hleft (c :: front') rest' (by rw [hs']; rfl) (Nat.succ_lt_succ hlt) a (readsAt_cons_iff.2 ha)

/-- The first match of a text is the leftmost one. -/
theorem head?_occurrences_eq_some_iff : (occurrences r s).head? = some o ↔
    ∃ front rest, s = front ++ rest ∧ ReadsAt r none front rest o.found ∧ o.start = front.length ∧
      ∀ front' rest', s = front' ++ rest' → front'.length < front.length → ∀ a, ¬ReadsAt r none front' rest' a := by
  rw [occurrences, head?_occurrencesFrom_eq_some_iff]
  simp only [Nat.zero_add]

/-! ## Matches that stand apart -/

/-- No match begins inside another one. -/
def StandApart (r : Recogniser α) : Prop :=
  ∀ before front rest a size, front ≠ [] → r before (front ++ rest) = some (a, size) → front.length < size →
    ∀ b, ¬ReadsAt r before front rest b

/-- When no match begins inside another one, the search finds what is read at any place, behind characters to skip at which nothing
is read. -/
theorem mem_occurrencesFrom_iff (hr : StandApart r) {skip position : Nat}
    (hskip : ∀ front rest, s = front ++ rest → front.length < skip → ∀ a, ¬ReadsAt r before front rest a) :
    o ∈ occurrencesFrom r before skip position s ↔
      ∃ front rest, s = front ++ rest ∧ ReadsAt r before front rest o.found ∧ o.start = position + front.length := by
  induction s generalizing before skip position with
  | nil => simp [occurrencesFrom, ReadsAt]
  | cons c s ih =>
    have hlater : ∀ {n}, (∀ front rest, s = front ++ rest → front.length < n → ∀ a, ¬ReadsAt r before (c :: front) rest a) →
        (o ∈ occurrencesFrom r (some c) n (position + 1) s ↔ ∃ front rest, s = front ++ rest ∧
          ReadsAt r before (c :: front) rest o.found ∧ o.start = position + (c :: front).length) := fun {n} hn => by
      rw [ih fun front rest hs hlt a ha => hn front rest hs hlt a (readsAt_cons_iff.2 ha)]
      simp only [readsAt_cons_iff, List.length_cons, Nat.add_assoc, Nat.add_comm 1]
    rw [exists_place_cons_iff]
    cases skip with
    | succ skip =>
      have hfront : ¬ReadsAt r before [] (c :: s) o.found := hskip [] (c :: s) rfl (Nat.succ_pos skip) o.found
      have hn : ∀ front rest, s = front ++ rest → front.length < skip → ∀ a, ¬ReadsAt r before (c :: front) rest a :=
        fun front rest hs hlt => hskip (c :: front) rest (by rw [hs]; rfl) (Nat.succ_lt_succ hlt)
      rw [occurrencesFrom, hlater hn]
      exact ⟨.inr, fun h => h.resolve_left fun h => hfront h.1⟩
    | zero =>
      cases hread : r before (c :: s) with
      | none =>
        have hfront : ¬ReadsAt r before [] (c :: s) o.found := by
          rw [readsAt_nil_iff, hread]
          simp
        rw [occurrencesFrom_of_no_match hread, hlater fun front rest _ hlt => absurd hlt (Nat.not_lt_zero front.length)]
        exact ⟨.inr, fun h => h.resolve_left fun h => hfront h.1⟩
      | some found =>
        obtain ⟨a, size⟩ := found
        have hn : ∀ front rest, s = front ++ rest → front.length < size - 1 →
            ∀ a, ¬ReadsAt r before (c :: front) rest a := by
          rintro front rest rfl hlt
          exact hr before (c :: front) rest a size (List.cons_ne_nil c front) hread (by rw [List.length_cons]; omega)
        have hfront : ReadsAt r before [] (c :: s) o.found ∧ o.start = position + ([] : List Char).length ↔
            o = ⟨position, a⟩ := by
          rw [readsAt_nil_iff, hread]
          obtain ⟨start, found⟩ := o
          simp [eq_comm, and_comm]
        rw [occurrencesFrom, hread, List.mem_cons, hlater hn, hfront]

/-- When no match begins inside another one, the search finds what is read at any place of a text. -/
theorem mem_occurrences_iff (hr : StandApart r) : o ∈ occurrences r s ↔
    ∃ front rest, s = front ++ rest ∧ ReadsAt r none front rest o.found ∧ o.start = front.length := by
  rw [occurrences, mem_occurrencesFrom_iff hr fun front _ _ hlt => absurd hlt (Nat.not_lt_zero front.length)]
  simp only [Nat.zero_add]

end SkillLint.Text
