import SkillLint.Markdown.Link
import SkillLint.Proofs.Text.Trim

/-!
# How links are written

The link pattern as a grammar: a text in square brackets, a target in parentheses with blanks around it, and optionally a title.
What is read is always written in this way (`exists_link_of_readLink`), and a link is read back exactly as it was written when its
target has one reading (`readLink_toText`), whatever stands behind it.
-/

namespace SkillLint.Markdown

/-! ## Targets -/

/-- Runs of bare characters and of groups of bare characters in parentheses. -/
inductive IsBareRun : List Char → Prop
  | nil : IsBareRun []
  | char {c : Char} {rest : List Char} (hc : isBare c = true) (h : IsBareRun rest) : IsBareRun (c :: rest)
  | group {inner rest : List Char} (hi : ∀ c ∈ inner, isBare c = true) (h : IsBareRun rest) :
    IsBareRun ('(' :: (inner ++ ')' :: rest))

/-- What a target can be, as it is written: a text in angle brackets, or a run that is not empty. -/
inductive IsTarget : List Char → Prop
  | angle {inner : List Char} (hi : '>' ∉ inner) : IsTarget ('<' :: (inner ++ ['>']))
  | bare {target : List Char} (h : IsBareRun target) (hne : target ≠ []) : IsTarget target

theorem isBare_iff {c : Char} : isBare c = true ↔ c ≠ '(' ∧ c ≠ ')' ∧ Text.isBlank c = false := by
  simp [isBare, and_assoc]

/-- A run has no blanks. -/
theorem IsBareRun.not_blank {run : List Char} (h : IsBareRun run) : ∀ c ∈ run, Text.isBlank c = false := by
  induction h with
  | nil => simp
  | char hc _ ih => exact List.forall_mem_cons.2 ⟨(isBare_iff.1 hc).2.2, ih⟩
  | group hi _ ih =>
    intro c hc
    rcases List.mem_cons.1 hc with rfl | hc
    · decide
    · rcases List.mem_append.1 hc with hc | hc
      · exact (isBare_iff.1 (hi c hc)).2.2
      · rcases List.mem_cons.1 hc with rfl | hc
        · decide
        · exact ih c hc

theorem IsTarget.exists_cons {target : List Char} (h : IsTarget target) :
    ∃ c rest, target = c :: rest ∧ Text.isBlank c = false := by
  cases h with
  | angle _ => exact ⟨'<', _, rfl, by decide⟩
  | bare h hne =>
    obtain ⟨c, rest, rfl⟩ := List.exists_cons_of_ne_nil hne
    exact ⟨c, rest, rfl, h.not_blank c List.mem_cons_self⟩

/-! ## Links -/

/-- A title in quotes, with the blanks before it. -/
structure Title where
  gap : List Char
  text : List Char
  gap_ne_nil : gap ≠ []
  gap_blank : ∀ c ∈ gap, Text.isBlank c = true
  no_quote : '"' ∉ text

/-- A title as it is written. -/
def Title.toText (t : Title) : List Char :=
  t.gap ++ '"' :: (t.text ++ ['"'])

/-- What stands behind the target of a link: a title, blanks and the closing parenthesis. -/
structure Tail where
  title : Option Title
  trail : List Char
  trail_blank : ∀ c ∈ trail, Text.isBlank c = true

/-- What stands behind a target, as it is written. -/
def Tail.toText (t : Tail) : List Char :=
  t.title.elim [] Title.toText ++ (t.trail ++ [')'])

/-- A link as it is written, that is, a text that the link pattern matches. -/
structure WrittenLink where
  text : List Char
  /-- The blanks before the target. -/
  lead : List Char
  target : List Char
  tail : Tail
  text_closed : ']' ∉ text
  lead_blank : ∀ c ∈ lead, Text.isBlank c = true
  target_ok : IsTarget target

namespace WrittenLink

/-- What stands before the target of a link. -/
def opening (l : WrittenLink) : List Char :=
  '[' :: (l.text ++ ']' :: '(' :: l.lead)

/-- A link as a text. -/
def toText (l : WrittenLink) : List Char :=
  l.opening ++ (l.target ++ l.tail.toText)

theorem length_opening_lt (l : WrittenLink) : l.opening.length < l.toText.length := by
  obtain ⟨c, rest, ht, -⟩ := l.target_ok.exists_cons
  rw [toText, List.length_append, List.length_append, ht, List.length_cons]
  omega

theorem toText_ne_nil (l : WrittenLink) : l.toText ≠ [] := by
  rw [toText, opening, List.cons_append]
  exact List.cons_ne_nil _ _

theorem toText_append (l : WrittenLink) (rest : List Char) :
    l.toText ++ rest = '[' :: (l.text ++ ']' :: '(' :: (l.lead ++ (l.target ++ (l.tail.toText ++ rest)))) := by
  simp [toText, opening]

end WrittenLink

/-! ## Reading the tail -/

theorem Title.exists_toText_eq (t : Title) : ∃ c rest, t.toText = c :: rest ∧ Text.isBlank c = true := by
  obtain ⟨c, rest, hg⟩ := List.exists_cons_of_ne_nil t.gap_ne_nil
  exact ⟨c, _, by rw [toText, hg]; rfl, t.gap_blank c (hg ▸ List.mem_cons_self)⟩

/-- What stands behind a target starts with a blank or with a closing parenthesis. -/
theorem Tail.exists_toText_eq (t : Tail) : ∃ c rest, t.toText = c :: rest ∧ (Text.isBlank c = true ∨ c = ')') := by
  obtain ⟨title, trail, htrail⟩ := t
  cases title with
  | none =>
    cases trail with
    | nil => exact ⟨')', [], rfl, .inr rfl⟩
    | cons c trail => exact ⟨c, trail ++ [')'], rfl, .inl (htrail c List.mem_cons_self)⟩
  | some title =>
    obtain ⟨c, rest, ht, hc⟩ := title.exists_toText_eq
    exact ⟨c, rest ++ (trail ++ [')']), by simp [toText, ht], .inl hc⟩

/-- What may follow a target is dropped exactly when it is there. -/
theorem dropTail?_eq_some_iff {s rest : List Char} : dropTail? s = some rest ↔ ∃ tail : Tail, s = tail.toText ++ rest := by
  constructor
  · intro h
    unfold dropTail? at h
    split at h
    · rename_i more hd
      obtain ⟨-, hs, hb⟩ := Text.dropWhile_eq_cons hd
      obtain rfl := Option.some.inj h
      exact ⟨⟨none, s.takeWhile Text.isBlank, hb⟩, by simp only [Tail.toText]; simpa using hs⟩
    · rename_i title hd
      obtain ⟨-, hs, hb⟩ := Text.dropWhile_eq_cons hd
      split at h
      · rename_i hblank
        split at h
        · rename_i behind hq
          obtain ⟨-, ht, hnq⟩ := Text.dropWhile_eq_cons hq
          split at h
          · rename_i more hm
            obtain ⟨-, hbehind, htrail⟩ := Text.dropWhile_eq_cons hm
            obtain rfl := Option.some.inj h
            have hgap : s.takeWhile Text.isBlank ≠ [] := fun e => by
              rw [hs, e] at hblank
              exact absurd (show Text.isBlank '"' = true from hblank) (by decide)
            refine ⟨⟨some ⟨s.takeWhile Text.isBlank, title.takeWhile (· != '"'), hgap, hb, Text.not_mem_takeWhile_ne _ _⟩,
              behind.takeWhile Text.isBlank, htrail⟩, ?_⟩
            simp only [Tail.toText, Title.toText, Option.elim_some]
            rw [hbehind] at ht
            rw [ht] at hs
            simpa using hs
          · exact absurd h (by simp)
        · exact absurd h (by simp)
      · exact absurd h (by simp)
    · exact absurd h (by simp)
  · rintro ⟨⟨title, trail, htrail⟩, rfl⟩
    have hclose : (trail ++ ')' :: rest).dropWhile Text.isBlank = ')' :: rest :=
      Text.dropWhile_append_cons htrail (by decide)
    cases title with
    | none =>
      simp only [Tail.toText, Option.elim_none, List.nil_append, List.append_assoc, List.singleton_append]
      rw [dropTail?, hclose]
      rfl
    | some title =>
      obtain ⟨gap, text, hne, hgap, hquote⟩ := title
      have hopen : (gap ++ '"' :: (text ++ '"' :: (trail ++ ')' :: rest))).dropWhile Text.isBlank =
          '"' :: (text ++ '"' :: (trail ++ ')' :: rest)) := Text.dropWhile_append_cons hgap (by decide)
      have hend : (text ++ '"' :: (trail ++ ')' :: rest)).dropWhile (· != '"') = '"' :: (trail ++ ')' :: rest) :=
        Text.dropWhile_append_cons (Text.forall_ne_of_not_mem hquote) (by simp)
      have hhead : (gap ++ '"' :: (text ++ '"' :: (trail ++ ')' :: rest))).head?.any Text.isBlank = true := by
        obtain ⟨c, more, rfl⟩ := List.exists_cons_of_ne_nil hne
        exact hgap c List.mem_cons_self
      simp only [Tail.toText, Title.toText, Option.elim_some, List.append_assoc, List.cons_append, List.nil_append]
      rw [dropTail?, hopen]
      simp only [hhead, if_true, hend, hclose]

/-! ## Reading a bare target -/

theorem closesGroup_append {inner : List Char} (hi : ∀ c ∈ inner, isBare c = true) (rest : List Char) :
    closesGroup (inner ++ ')' :: rest) = true := by
  rw [closesGroup, Text.dropWhile_append_cons hi (by decide)]
  rfl

/-- The length of a run from inside a group is that of the rest of the group and of the run behind it. -/
theorem bareLength_inside {inner : List Char} (hi : ∀ c ∈ inner, isBare c = true) (rest : List Char) :
    bareLength true (inner ++ ')' :: rest) = inner.length + 1 + bareLength false rest := by
  induction inner with
  | nil => simp [bareLength]
  | cons c inner ih =>
    obtain ⟨hc, hi⟩ := List.forall_mem_cons.1 hi
    have hne : (c != ')') = true := bne_iff_ne.2 (isBare_iff.1 hc).2.1
    rw [List.cons_append, bareLength, if_pos rfl, hne, ih hi, List.length_cons]
    omega

/-- A run is as long as it goes on: up to a character that is neither bare nor an opening parenthesis. -/
theorem bareLength_append {run : List Char} (h : IsBareRun run) {rest : List Char}
    (hr : ∀ c ∈ rest.head?, isBare c = false ∧ c ≠ '(') : bareLength false (run ++ rest) = run.length := by
  induction h with
  | nil =>
    cases rest with
    | nil => rfl
    | cons c rest =>
      obtain ⟨hb, hp⟩ := hr c rfl
      simp [bareLength, hb, hp]
  | @char c run hc _ ih =>
    rw [List.cons_append, bareLength, if_neg Bool.false_ne_true, if_neg (isBare_iff.1 hc).1, if_pos hc, ih, List.length_cons,
      Nat.add_comm]
  | @group inner run hi _ ih =>
    rw [List.cons_append, List.append_assoc, List.cons_append, bareLength, if_neg Bool.false_ne_true, if_pos rfl,
      if_pos (closesGroup_append hi _), bareLength_inside hi, ih]
    simp only [List.length_cons, List.length_append]
    omega

/-- A text starts with a run of the length that is read; and inside a group that closes, with the rest of the group and a
run. -/
theorem exists_bareRun (s : List Char) :
    (∃ run rest, s = run ++ rest ∧ IsBareRun run ∧ run.length = bareLength false s) ∧
      (closesGroup s = true → ∃ inner run rest, s = inner ++ ')' :: (run ++ rest) ∧ (∀ c ∈ inner, isBare c = true) ∧
        IsBareRun run ∧ inner.length + 1 + run.length = bareLength true s) := by
  induction s with
  | nil => exact ⟨⟨[], [], rfl, .nil, rfl⟩, fun h => absurd h (by decide)⟩
  | cons c s ih =>
    obtain ⟨⟨run, rest, hs, hrun, hlen⟩, hgroup⟩ := ih
    have hempty : ∀ {n}, bareLength false (c :: s) = n → n = 0 →
        ∃ run rest, c :: s = run ++ rest ∧ IsBareRun run ∧ run.length = bareLength false (c :: s) := fun hn h0 =>
      ⟨[], c :: s, rfl, .nil, by rw [hn, h0]; rfl⟩
    constructor
    · by_cases hp : c = '('
      · by_cases hg : closesGroup s = true
        · obtain ⟨inner, run, rest, rfl, hi, hrun, hlen⟩ := hgroup hg
          refine ⟨'(' :: (inner ++ ')' :: run), rest, by simp [hp], .group hi hrun, ?_⟩
          rw [bareLength, if_neg Bool.false_ne_true, if_pos hp, if_pos hg, ← hlen, List.length_cons, List.length_append,
            List.length_cons]
          omega
        · exact hempty (by rw [bareLength, if_neg Bool.false_ne_true, if_pos hp, if_neg hg]) rfl
      · by_cases hc : isBare c = true
        · refine ⟨c :: run, rest, by rw [hs]; rfl, .char hc hrun, ?_⟩
          rw [bareLength, if_neg Bool.false_ne_true, if_neg hp, if_pos hc, ← hlen, List.length_cons, Nat.add_comm]
        · exact hempty (by rw [bareLength, if_neg Bool.false_ne_true, if_neg hp, if_neg hc]) rfl
    · intro hclose
      by_cases hp : c = ')'
      · refine ⟨[], run, rest, by rw [hp, hs]; rfl, by simp, hrun, ?_⟩
        have hne : (c != ')') = false := by simp [hp]
        rw [bareLength, if_pos rfl, hne, ← hlen]
        simp
      · have hb : isBare c = true := by
          cases hb : isBare c with
          | true => rfl
          | false =>
            rw [closesGroup, List.dropWhile_cons_of_neg (by simp [hb])] at hclose
            exact absurd (by simpa using hclose) hp
        have hclose' : closesGroup s = true := by
          rwa [closesGroup, List.dropWhile_cons_of_pos hb] at hclose
        obtain ⟨inner, run, rest, hs, hi, hrun, hlen⟩ := hgroup hclose'
        refine ⟨c :: inner, run, rest, by rw [hs]; rfl, List.forall_mem_cons.2 ⟨hb, hi⟩, hrun, ?_⟩
        have hne : (c != ')') = true := bne_iff_ne.2 hp
        rw [bareLength, if_pos rfl, hne, ← hlen, List.length_cons]
        omega

/-- A text is a run exactly when all of it is read as one, so whether it is can be computed. -/
theorem isBareRun_iff {s : List Char} : IsBareRun s ↔ bareLength false s = s.length := by
  constructor
  · intro h
    have := bareLength_append h (by simp : ∀ c ∈ ([] : List Char).head?, isBare c = false ∧ c ≠ '(')
    rwa [List.append_nil] at this
  · intro h
    obtain ⟨run, rest, rfl, hrun, hlen⟩ := (exists_bareRun s).1
    have hrest : rest = [] := List.eq_nil_of_length_eq_zero (by rw [h, List.length_append] at hlen; omega)
    rwa [hrest, List.append_nil]

/-! ## Reading a target -/

/-- What is read as a target in angle brackets is one, and behind it stands what may follow a target. -/
theorem readAngleTarget?_eq_some_iff {s target after : List Char} : readAngleTarget? s = some (target, after) ↔
    ∃ (inner : List Char) (tail : Tail), '>' ∉ inner ∧ target = '<' :: (inner ++ ['>']) ∧
      s = target ++ (tail.toText ++ after) := by
  constructor
  · intro h
    unfold readAngleTarget? at h
    split at h
    · rename_i rest
      split at h
      · rename_i behind hd
        obtain ⟨-, hs, hn⟩ := Text.dropWhile_eq_cons hd
        obtain ⟨after', ht, he⟩ := Option.map_eq_some_iff.1 h
        obtain ⟨rfl, rfl⟩ := Prod.mk.inj he
        obtain ⟨tail, rfl⟩ := dropTail?_eq_some_iff.1 ht
        refine ⟨_, tail, Text.not_mem_takeWhile_ne rest '>', rfl, ?_⟩
        have := congrArg ('<' :: ·) hs
        simpa using this
      · exact absurd h (by simp)
    · exact absurd h (by simp)
  · rintro ⟨inner, tail, hi, rfl, rfl⟩
    have hall := Text.forall_ne_of_not_mem hi
    have hd : (inner ++ '>' :: (tail.toText ++ after)).dropWhile (· != '>') = '>' :: (tail.toText ++ after) :=
      Text.dropWhile_append_cons hall (by simp)
    have ht : (inner ++ '>' :: (tail.toText ++ after)).takeWhile (· != '>') = inner :=
      Text.takeWhile_append_cons hall (by simp)
    rw [List.cons_append, List.append_assoc, List.singleton_append, readAngleTarget?, hd]
    simp only [dropTail?_eq_some_iff.2 ⟨tail, rfl⟩, ht, Option.map_some, List.cons_append]

/-- Neither a bare character nor a group goes on where what follows a target stands. -/
theorem Tail.head_toText_append (tail : Tail) (rest : List Char) :
    ∀ c ∈ (tail.toText ++ rest).head?, isBare c = false ∧ c ≠ '(' := by
  obtain ⟨c, more, ht, hc⟩ := tail.exists_toText_eq
  rw [ht]
  intro d hd
  obtain rfl := Option.some.inj hd
  rcases hc with hc | rfl
  · refine ⟨by simp [isBare, hc], ?_⟩
    rintro rfl
    exact absurd hc (by decide)
  · decide

/-- What is read as a bare target is one, and behind it stands what may follow a target. -/
theorem readBareTarget?_eq_some_iff {s target after : List Char} : readBareTarget? s = some (target, after) ↔
    ∃ tail : Tail, IsBareRun target ∧ target ≠ [] ∧ s = target ++ (tail.toText ++ after) := by
  constructor
  · intro h
    unfold readBareTarget? at h
    simp only at h
    split at h
    · exact absurd h (by simp)
    · rename_i hsize
      obtain ⟨after', ht, he⟩ := Option.map_eq_some_iff.1 h
      obtain ⟨rfl, rfl⟩ := Prod.mk.inj he
      obtain ⟨tail, ht⟩ := dropTail?_eq_some_iff.1 ht
      obtain ⟨run, rest, hs, hrun, hlen⟩ := (exists_bareRun s).1
      have htake : s.take (bareLength false s) = run := by rw [← hlen, hs, List.take_left]
      rw [htake]
      refine ⟨tail, hrun, fun e => hsize ?_, ?_⟩
      · rw [← hlen, e]
        rfl
      · rw [← ht, ← htake, List.take_append_drop]
  · rintro ⟨tail, hrun, hne, rfl⟩
    have hsize := bareLength_append hrun (tail.head_toText_append after)
    have hpos : ¬target.length = 0 := fun e => hne (List.eq_nil_of_length_eq_zero e)
    simp only [readBareTarget?, hsize, if_neg hpos, List.drop_left, List.take_left, dropTail?_eq_some_iff.2 ⟨tail, rfl⟩,
      Option.map_some]

/-- The form in angle brackets is tried first. -/
theorem readTarget?_eq_some_iff {s : List Char} {found : List Char × List Char} : readTarget? s = some found ↔
    readAngleTarget? s = some found ∨ readAngleTarget? s = none ∧ readBareTarget? s = some found := by
  unfold readTarget?
  cases readAngleTarget? s <;> simp

/-- What is read is a target, and behind it what may follow one. -/
theorem exists_target_of_readTarget? {s target after : List Char} (h : readTarget? s = some (target, after)) :
    IsTarget target ∧ ∃ tail : Tail, s = target ++ (tail.toText ++ after) := by
  rcases readTarget?_eq_some_iff.1 h with h | ⟨-, h⟩
  · obtain ⟨inner, tail, hi, rfl, hs⟩ := readAngleTarget?_eq_some_iff.1 h
    exact ⟨.angle hi, tail, hs⟩
  · obtain ⟨tail, hrun, hne, hs⟩ := readBareTarget?_eq_some_iff.1 h
    exact ⟨.bare hrun hne, tail, hs⟩

/-- The targets that have one reading, each with the text that it leads to: what stands in angle brackets, if that is trimmed
and does not start with another bracket, and a run that neither starts nor ends with an angle bracket. -/
inductive LeadsTo : List Char → List Char → Prop
  | angle {inner : List Char} (hne : inner ≠ []) (htrim : Text.trim inner = inner) (hstart : inner.head? ≠ some '<')
    (hi : '>' ∉ inner) : LeadsTo ('<' :: (inner ++ ['>'])) inner
  | bare {target : List Char} (h : IsBareRun target) (hne : target ≠ []) (hstart : target.head? ≠ some '<')
    (hend : target.getLast? ≠ some '>') : LeadsTo target target

theorem LeadsTo.ne_nil {target destination : List Char} (h : LeadsTo target destination) : destination ≠ [] := by
  cases h with
  | angle hne _ _ _ => exact hne
  | bare _ hne _ _ => exact hne

/-- Without its angle brackets and the blanks around it, a target is what it leads to. -/
theorem LeadsTo.bareTarget_eq {target destination : List Char} (h : LeadsTo target destination) :
    bareTarget target = destination := by
  cases h with
  | angle hne htrim hstart hi =>
    obtain ⟨c, rest, rfl⟩ := List.exists_cons_of_ne_nil hne
    have hc : (c == '<') = false := beq_eq_false_iff_ne.2 fun e => hstart (by rw [e]; rfl)
    have hlast : Text.dropTrailing (· == '>') (c :: rest) = c :: rest := by
      refine Text.dropTrailing_of_getLast? fun d hd => beq_eq_false_iff_ne.2 ?_
      rintro rfl
      exact hi (List.mem_of_mem_getLast? hd)
    rw [bareTarget, List.dropWhile_cons_of_pos (by rfl), List.cons_append, List.dropWhile_cons_of_neg (by simp [hc]),
      ← List.cons_append, Text.dropTrailing_append_of_all _ (by simp), hlast, htrim]
  | bare h hne hstart hend =>
    have hblank := h.not_blank
    obtain ⟨c, rest, rfl⟩ := List.exists_cons_of_ne_nil hne
    have hc : (c == '<') = false := beq_eq_false_iff_ne.2 fun e => hstart (by rw [e]; rfl)
    have hlast : Text.dropTrailing (· == '>') (c :: rest) = c :: rest := by
      refine Text.dropTrailing_of_getLast? fun d hd => beq_eq_false_iff_ne.2 ?_
      rintro rfl
      exact hend hd
    rw [bareTarget, List.dropWhile_cons_of_neg (by simp [hc]), hlast]
    exact Text.trim_of_ends (fun d hd => hblank d (List.mem_of_mem_head? hd))
      fun d hd => hblank d (List.mem_of_mem_getLast? hd)

/-- A target with one reading is read back, with whatever may follow it dropped. -/
theorem LeadsTo.readTarget?_eq {target destination : List Char} (h : LeadsTo target destination) (tail : Tail)
    (rest : List Char) : readTarget? (target ++ (tail.toText ++ rest)) = some (target, rest) := by
  rw [readTarget?_eq_some_iff]
  cases h with
  | angle _ _ _ hi => exact .inl (readAngleTarget?_eq_some_iff.2 ⟨destination, tail, hi, rfl, rfl⟩)
  | bare h hne hstart _ =>
    refine .inr ⟨?_, readBareTarget?_eq_some_iff.2 ⟨tail, h, hne, rfl⟩⟩
    obtain ⟨c, more, rfl⟩ := List.exists_cons_of_ne_nil hne
    unfold readAngleTarget?
    split
    · rename_i e
      rw [List.cons_append] at e
      exact absurd (by rw [(List.cons.inj e).1]; rfl) hstart
    · rfl

/-! ## Reading a link -/

/-- What is read as a link is written as one, and its target is read from where it stands. -/
theorem readLink_eq_some_iff {previous : Option Char} {s : List Char} {link : Link} {size : Nat} :
    readLink previous s = some (link, size) ↔ ∃ (l : WrittenLink) (rest : List Char), s = l.toText ++ rest ∧
      readTarget? (l.target ++ (l.tail.toText ++ rest)) = some (l.target, rest) ∧
      link = ⟨l.target, l.opening.length⟩ ∧ size = l.toText.length := by
  constructor
  · intro h
    unfold readLink at h
    split at h
    · rename_i text
      split at h
      · rename_i inner hd
        obtain ⟨-, htext, -⟩ := Text.dropWhile_eq_cons hd
        simp only at h
        obtain ⟨⟨target, after⟩, hread, he⟩ := Option.map_eq_some_iff.1 h
        obtain ⟨hlink, hsize⟩ := Prod.mk.inj he
        obtain ⟨htarget, tail, hstart⟩ := exists_target_of_readTarget? hread
        have hlead : inner.takeWhile Text.isBlank ++ inner.dropWhile Text.isBlank = inner :=
          List.takeWhile_append_dropWhile
        let l : WrittenLink := ⟨text.takeWhile (· != ']'), inner.takeWhile Text.isBlank, target, tail,
          Text.not_mem_takeWhile_ne _ _, fun c hc => List.all_eq_true.1 List.all_takeWhile c hc, htarget⟩
        have hs : '[' :: text = l.opening ++ inner.dropWhile Text.isBlank := by
          rw [← hlead] at htext
          have := congrArg ('[' :: ·) htext
          simpa [l, WrittenLink.opening] using this
        have hall : '[' :: text = l.toText ++ after := by
          rw [hs, hstart, WrittenLink.toText, List.append_assoc, List.append_assoc]
        refine ⟨l, after, hall, hstart ▸ hread, ?_, ?_⟩
        · rw [← hlink, hs, List.length_append, Nat.add_sub_cancel]
        · rw [← hsize, hall, List.length_append, Nat.add_sub_cancel]
      · exact absurd h (by simp)
    · exact absurd h (by simp)
  · rintro ⟨l, rest, rfl, hread, rfl, rfl⟩
    obtain ⟨c, more, ht, hc⟩ := l.target_ok.exists_cons
    have hclose : (l.text ++ ']' :: '(' :: (l.lead ++ (l.target ++ (l.tail.toText ++ rest)))).dropWhile (· != ']') =
        ']' :: '(' :: (l.lead ++ (l.target ++ (l.tail.toText ++ rest))) :=
      Text.dropWhile_append_cons (Text.forall_ne_of_not_mem l.text_closed) (by simp)
    have hlead : (l.lead ++ (l.target ++ (l.tail.toText ++ rest))).dropWhile Text.isBlank =
        l.target ++ (l.tail.toText ++ rest) := by
      rw [ht, List.cons_append]
      exact Text.dropWhile_append_cons l.lead_blank hc
    have hoffset : ('[' :: (l.text ++ ']' :: '(' :: (l.lead ++ (l.target ++ (l.tail.toText ++ rest))))).length -
        (l.target ++ (l.tail.toText ++ rest)).length = l.opening.length := by
      simp only [WrittenLink.opening, List.length_cons, List.length_append]
      omega
    have hsize : ('[' :: (l.text ++ ']' :: '(' :: (l.lead ++ (l.target ++ (l.tail.toText ++ rest))))).length -
        rest.length = l.toText.length := by
      rw [← l.toText_append, List.length_append, Nat.add_sub_cancel]
    rw [l.toText_append, readLink]
    simp only [hclose, hlead, hread, Option.map_some, hoffset, hsize]

/-- What is read as a link is written as one. -/
theorem exists_link_of_readLink {previous : Option Char} {s : List Char} {link : Link} {size : Nat}
    (h : readLink previous s = some (link, size)) :
    ∃ (l : WrittenLink) (rest : List Char), s = l.toText ++ rest ∧ link = ⟨l.target, l.opening.length⟩ ∧
      size = l.toText.length := by
  obtain ⟨l, rest, hs, -, hlink, hsize⟩ := readLink_eq_some_iff.1 h
  exact ⟨l, rest, hs, hlink, hsize⟩

/-- A link whose target has one reading is read back, with the place of its target and its length, whatever stands behind
it. -/
theorem readLink_toText {l : WrittenLink} {destination : List Char} (h : LeadsTo l.target destination)
    (previous : Option Char) (rest : List Char) :
    readLink previous (l.toText ++ rest) = some (⟨l.target, l.opening.length⟩, l.toText.length) :=
  readLink_eq_some_iff.2 ⟨l, rest, rfl, h.readTarget?_eq l.tail rest, rfl, rfl⟩

end SkillLint.Markdown
