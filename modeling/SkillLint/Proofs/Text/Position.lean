import SkillLint.Proofs.Text.Lines

/-!
# Places in joined lines

A place in a text that is joined from lines lies on one of them: on the line that has as many lines above it as there are line
feeds before the place (`exists_line_of_joinLines_eq`). What starts there without a line feed lies on that line as a whole. The
lines that the joined text is split into again differ from the ones it was joined from by carriage returns at their ends only
(`exists_lines_append_newline`).
-/

namespace SkillLint.Text

/-! ## Splitting again -/

/-- A carriage return before the line feed behind a line is not part of the line. -/
theorem lines_append_return_newline {l : List Char} (h : '\n' ∉ l) (rest : List Char) :
    lines (l ++ '\r' :: '\n' :: rest) = l :: lines rest := by
  induction l with
  | nil => exact lines_return_newline rest
  | cons c l ih =>
    have hc : c ≠ '\n' := fun e => h (e ▸ List.mem_cons_self)
    have hl : '\n' ∉ l := fun e => h (List.mem_cons_of_mem _ e)
    have hret : ¬(c = '\r' ∧ (l ++ '\r' :: '\n' :: rest).head? = some '\n') := by
      rintro ⟨-, he⟩
      cases l with
      | nil => exact absurd (Option.some.inj he) (by decide)
      | cons d l => exact hl (Option.some.inj he ▸ List.mem_cons_self)
    rw [List.cons_append, lines, if_neg hc, if_neg hret, ih hl]
    rfl

/-- The first line of a text is what stands before its first line feed, up to a carriage return at the end. -/
theorem exists_lines_append_newline {l : List Char} (h : '\n' ∉ l) (rest : List Char) :
    ∃ line, lines (l ++ '\n' :: rest) = line :: lines rest ∧ (l = line ∨ l = line ++ ['\r']) := by
  by_cases hr : l.getLast? = some '\r'
  · obtain ⟨line, rfl⟩ := List.getLast?_eq_some_iff.1 hr
    refine ⟨line, ?_, .inr rfl⟩
    rw [List.append_assoc]
    exact lines_append_return_newline (fun e => h (List.mem_append_left _ e)) rest
  · exact ⟨l, lines_append_newline ⟨h, hr⟩ rest, .inl rfl⟩

/-- Joined lines are split into as many lines again, but for an empty line at the end, behind which no line feed stands. -/
theorem length_lines_joinLines {ls : List (List Char)} (hls : ∀ l ∈ ls, '\n' ∉ l) :
    (lines (joinLines ls)).length = if ls.getLast? = some [] then ls.length - 1 else ls.length := by
  induction ls with
  | nil => rfl
  | cons l ls ih =>
    obtain ⟨hl, hls⟩ := List.forall_mem_cons.1 hls
    by_cases hnil : ls = []
    · subst hnil
      rw [joinLines_singleton]
      by_cases hempty : l = []
      · rw [hempty]
        rfl
      · rw [lines_of_no_newline hempty hl, if_neg (by simpa using hempty)]
    · obtain ⟨line, hlines, -⟩ := exists_lines_append_newline hl (joinLines ls)
      have hlast : (l :: ls).getLast? = ls.getLast? := by
        obtain ⟨m, more, rfl⟩ := List.exists_cons_of_ne_nil hnil
        exact List.getLast?_cons_cons
      have hpos : 0 < ls.length := List.length_pos_iff.2 hnil
      rw [joinLines_cons l hnil, hlines, List.length_cons, ih hls, hlast, List.length_cons]
      split
      · omega
      · rfl

/-! ## Places -/

theorem lineAt_append (front rest : List Char) : lineAt (front ++ rest) front.length = front.count '\n' := by
  rw [lineAt, List.take_left]

/-- A text starts on a line, given the lines below it: from some place of the line on, the lines read as the text, which is not
empty. -/
def StartsOn (s line : List Char) (below : List (List Char)) : Prop :=
  s ≠ [] ∧ ∃ left right, line = left ++ right ∧ right ≠ [] ∧ s <+: joinLines (right :: below)

/-- Behind the first of some joined lines stands nothing or a line feed. -/
theorem exists_joinLines_cons_eq (l : List Char) (ls : List (List Char)) :
    ∃ tail, joinLines (l :: ls) = l ++ tail ∧ (tail = [] ∨ tail = '\n' :: joinLines ls) := by
  by_cases hls : ls = []
  · refine ⟨[], ?_, .inl rfl⟩
    rw [hls, List.append_nil, joinLines_singleton]
  · exact ⟨_, joinLines_cons l hls, .inr rfl⟩

theorem joinLines_append (front l : List Char) (ls : List (List Char)) :
    joinLines ((front ++ l) :: ls) = front ++ joinLines (l :: ls) := by
  by_cases hls : ls = []
  · rw [hls, joinLines_singleton, joinLines_singleton]
  · rw [joinLines_cons _ hls, joinLines_cons _ hls, List.append_assoc]

/-- A place of joined lines at which there is no line feed lies on the line that has as many lines above it as there are line
feeds before the place. -/
theorem exists_line_of_joinLines_eq {ls : List (List Char)} (hls : ∀ l ∈ ls, '\n' ∉ l) {front rest : List Char} {c : Char}
    (hc : c ≠ '\n') (h : joinLines ls = front ++ c :: rest) :
    ∃ above left right below, ls = above ++ (left ++ c :: right) :: below ∧ above.length = front.count '\n' ∧
      c :: rest = joinLines ((c :: right) :: below) := by
  induction ls generalizing front with
  | nil => exact absurd h.symm (by simp [joinLines])
  | cons l ls ih =>
    obtain ⟨hl, hls⟩ := List.forall_mem_cons.1 hls
    obtain ⟨tail, ht, htail⟩ := exists_joinLines_cons_eq l ls
    rw [ht] at h
    rcases List.append_eq_append_iff.1 h with ⟨more, rfl, hmore⟩ | ⟨part, rfl, hpart⟩
    · -- The place is behind the line, and then also behind its line feed, since there is none at the place.
      rcases htail with rfl | rfl
      · exact absurd hmore.symm (by simp)
      · cases more with
        | nil => exact absurd (List.cons.inj hmore).1.symm hc
        | cons d more =>
          obtain ⟨rfl, hrest⟩ := List.cons.inj hmore
          obtain ⟨above, left, right, below, rfl, hcount, hjoin⟩ := ih hls hrest
          refine ⟨l :: above, left, right, below, rfl, ?_, hjoin⟩
          rw [List.count_append, List.count_eq_zero.2 hl, List.count_cons_self, List.length_cons, hcount, Nat.zero_add]
    · cases part with
      | nil =>
        rcases htail with rfl | rfl
        · exact absurd hpart (by simp)
        · exact absurd (List.cons.inj hpart).1 hc
      | cons d right =>
        obtain ⟨rfl, hrest⟩ := List.cons.inj hpart
        have hfront : front.count '\n' = 0 := List.count_eq_zero.2 fun e => hl (List.mem_append_left _ e)
        rw [joinLines_append, List.append_assoc] at ht
        exact ⟨[], front, right, ls, rfl, hfront.symm, hpart.trans (List.append_cancel_left ht).symm⟩

/-- A text in joined lines that starts with no line feed starts on the line that has as many lines above it as there are line
feeds before the text. -/
theorem exists_startsOn_of_joinLines_eq {ls : List (List Char)} (hls : ∀ l ∈ ls, '\n' ∉ l) {front s rest : List Char}
    (hne : s ≠ []) (hs : s.head? ≠ some '\n') (h : joinLines ls = front ++ (s ++ rest)) :
    ∃ above line below, ls = above ++ line :: below ∧ above.length = front.count '\n' ∧ StartsOn s line below := by
  obtain ⟨c, more, rfl⟩ := List.exists_cons_of_ne_nil hne
  have hc : c ≠ '\n' := fun e => hs (congrArg some e)
  obtain ⟨above, left, right, below, hat, hcount, hjoin⟩ := exists_line_of_joinLines_eq hls hc h
  exact ⟨above, _, below, hat, hcount, hne, left, c :: right, rfl, List.cons_ne_nil _ _, rest, hjoin⟩

/-- A text without a line feed lies on the line that it starts on. -/
theorem StartsOn.isInfix {s line : List Char} {below : List (List Char)} (h : StartsOn s line below) (hs : '\n' ∉ s) :
    s <:+: line := by
  obtain ⟨-, left, right, rfl, -, hprefix⟩ := h
  obtain ⟨tail, ht, htail⟩ := exists_joinLines_cons_eq right below
  rw [ht] at hprefix
  have hright : s <+: right := by
    obtain ⟨rest, hrest⟩ := hprefix
    rcases List.append_eq_append_iff.1 hrest with ⟨more, hr, -⟩ | ⟨part, hr, hpart⟩
    · exact ⟨more, hr.symm⟩
    · rcases htail with rfl | rfl
      · obtain ⟨rfl, -⟩ := List.append_eq_nil_iff.1 hpart.symm
        exact ⟨[], by rw [hr, List.append_nil, List.append_nil]⟩
      · cases part with
        | nil => exact ⟨[], by rw [hr, List.append_nil, List.append_nil]⟩
        | cons d part =>
          obtain ⟨rfl, -⟩ := List.cons.inj hpart
          exact absurd (hr ▸ List.mem_append_right _ List.mem_cons_self) hs
  exact hright.isInfix.trans (List.suffix_append left right).isInfix

end SkillLint.Text
