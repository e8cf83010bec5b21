import SkillLint.Proofs.Markdown.References
import SkillLint.Proofs.Text.Continued

/-!
# Links of texts that go on

What is put behind a text can change how the text is read: a text in square brackets, a target in angle brackets or a title that
is left open in it may be closed behind it, and the link that comes about then runs over links of the text. A link stays exactly
when no such link begins at its place or before it (`mem_occurrences_iff`), and so do the references of the links that stay.
-/

namespace SkillLint.Markdown

open Text (GoesOn occurrences)

/-! ## Reading with more behind -/

theorem append_eq_target_iff {s more target after : List Char} {tail : Tail} :
    s ++ more = target ++ (tail.toText ++ (after ++ more)) ↔ s = target ++ (tail.toText ++ after) := by
  rw [← List.append_assoc tail.toText, ← List.append_assoc target, List.append_cancel_right_eq]

/-- With more behind a text the same target in angle brackets is read if it ends in the text. -/
theorem readAngleTarget?_append_iff {s more target after : List Char} :
    readAngleTarget? (s ++ more) = some (target, after ++ more) ↔ readAngleTarget? s = some (target, after) := by
  rw [readAngleTarget?_eq_some_iff, readAngleTarget?_eq_some_iff]
  simp only [append_eq_target_iff]

theorem readBareTarget?_append_iff {s more target after : List Char} :
    readBareTarget? (s ++ more) = some (target, after ++ more) ↔ readBareTarget? s = some (target, after) := by
  rw [readBareTarget?_eq_some_iff, readBareTarget?_eq_some_iff]
  simp only [append_eq_target_iff]

/-- A target is read in a text if one is read with more behind it and its link ends in the text. -/
theorem readTarget?_of_append {s more target after : List Char}
    (h : readTarget? (s ++ more) = some (target, after ++ more)) : readTarget? s = some (target, after) := by
  rcases readTarget?_eq_some_iff.1 h with h | ⟨hnone, h⟩
  · exact readTarget?_eq_some_iff.2 (.inl (readAngleTarget?_append_iff.1 h))
  · refine readTarget?_eq_some_iff.2 (.inr ⟨Option.eq_none_iff_forall_not_mem.2 fun found hfound => ?_,
      readBareTarget?_append_iff.1 h⟩)
    obtain ⟨target, after⟩ := found
    rw [readAngleTarget?_append_iff.2 hfound] at hnone
    exact absurd hnone (by simp)

/-- A target is read with more behind a text if one is read in the text; it can be another one. -/
theorem exists_readTarget?_append {s target after : List Char} (h : readTarget? s = some (target, after))
    (more : List Char) : ∃ found, readTarget? (s ++ more) = some found := by
  cases hangle : readAngleTarget? (s ++ more) with
  | some found => exact ⟨found, readTarget?_eq_some_iff.2 (.inl hangle)⟩
  | none =>
    rcases readTarget?_eq_some_iff.1 h with h | ⟨-, h⟩
    · rw [readAngleTarget?_append_iff.2 h] at hangle
      exact absurd hangle (by simp)
    · exact ⟨_, readTarget?_eq_some_iff.2 (.inr ⟨hangle, readBareTarget?_append_iff.2 h⟩)⟩

/-- A link is read with more behind a text if one is read in the text; it can be another one. -/
theorem exists_readLink_append {before : Option Char} {s : List Char} {found : Link × Nat}
    (h : readLink before s = some found) (more : List Char) : ∃ found', readLink before (s ++ more) = some found' := by
  obtain ⟨l, rest, rfl, hread, -, -⟩ := readLink_eq_some_iff.1 h
  obtain ⟨⟨target, after⟩, hread'⟩ := exists_readTarget?_append hread more
  obtain ⟨htarget, tail, hs⟩ := exists_target_of_readTarget? hread'
  let l' : WrittenLink := { l with target := target, tail := tail, target_ok := htarget }
  have htext : l.toText ++ rest ++ more = l'.toText ++ after := by
    have hopening := congrArg (l.opening ++ ·) hs
    simpa [l', WrittenLink.toText, WrittenLink.opening] using hopening
  exact ⟨_, readLink_eq_some_iff.2 ⟨l', after, htext, hs ▸ hread', rfl, rfl⟩⟩

/-- Links are read in the same way with more behind a text, unless a link is read that ends behind it. -/
theorem isStable_readLink (more : List Char) : Text.IsStable readLink more := by
  refine Text.isStable_of_reads ?_ (fun before s found h => exists_readLink_append h more) ?_
  · intro before s link size h
    obtain ⟨l, rest, rfl, -, rfl⟩ := exists_link_of_readLink h
    rw [List.length_append]
    exact Nat.le_add_right _ _
  · intro before s link size h hle
    obtain ⟨l, rest, hs, hread, rfl, rfl⟩ := readLink_eq_some_iff.1 h
    obtain ⟨middle, rfl, rfl⟩ := Text.exists_of_append_eq_append hs hle
    rw [← List.append_assoc, ← List.append_assoc, List.append_assoc l.target] at hread
    exact readLink_eq_some_iff.2 ⟨l, middle, rfl, readTarget?_of_append hread, rfl, rfl⟩

/-! ## Ends of links -/

theorem WrittenLink.exists_toText_eq (l : WrittenLink) : ∃ front, l.toText = front ++ [')'] :=
  ⟨l.opening ++ (l.target ++ (l.tail.title.elim [] Title.toText ++ l.tail.trail)),
    by simp only [WrittenLink.toText, Tail.toText, List.append_assoc]⟩

/-- A link does not reach another character at the end of a text. -/
theorem WrittenLink.length_toText_le {l : WrittenLink} {s rest : List Char} {c : Char} (hc : c ≠ ')')
    (h : s ++ [c] = l.toText ++ rest) : l.toText.length ≤ s.length := by
  by_cases hrest : rest = []
  · obtain ⟨front, hfront⟩ := l.exists_toText_eq
    rw [hrest, List.append_nil, hfront] at h
    exact absurd (List.singleton_inj.1 (List.append_inj' h rfl).2) hc
  · have hlength := congrArg List.length h
    have hpos := List.length_pos_iff.2 hrest
    simp only [List.length_append, List.length_singleton] at hlength
    omega

/-- A link that reaches a line feed behind a text goes on behind it. -/
theorem WrittenLink.add_two_le_length_toText {l : WrittenLink} {s more after : List Char} (hmore : ∀ c ∈ more.head?, c = '\n')
    (h : s ++ more = l.toText ++ after) (hlt : s.length < l.toText.length) : s.length + 2 ≤ l.toText.length := by
  refine Nat.lt_of_le_of_ne hlt fun hend => ?_
  cases more with
  | nil =>
    have hlength := congrArg List.length h
    rw [List.length_append, List.length_append, List.length_nil] at hlength
    omega
  | cons c more =>
    obtain rfl := hmore c rfl
    rw [List.append_cons] at h
    obtain ⟨htext, -⟩ := List.append_inj h (by rw [List.length_append, List.length_singleton]; exact hend)
    have hall : s ++ ['\n'] = l.toText ++ [] := by rw [List.append_nil, htext]
    have hle := WrittenLink.length_toText_le (by decide) hall
    omega

/-- How long a link is, is told by the text, the place and the target. -/
theorem WrittenLink.length_toText_eq {l l' : WrittenLink} {rest rest' : List Char}
    (h : l.toText ++ rest = l'.toText ++ rest') (ht : l.target = l'.target)
    (ho : l.opening.length = l'.opening.length) : l.toText.length = l'.toText.length := by
  have hall : l.opening ++ (l.target ++ (l.tail.toText ++ rest)) = l'.opening ++ (l'.target ++ (l'.tail.toText ++ rest')) := by
    simpa only [WrittenLink.toText, List.append_assoc] using h
  obtain ⟨-, hbehind⟩ := List.append_inj hall ho
  rw [ht] at hbehind
  have htail := List.append_cancel_left hbehind
  have hrest : some rest = some rest' := by
    rw [← dropTail?_eq_some_iff.2 ⟨l.tail, rfl⟩, htail, dropTail?_eq_some_iff.2 ⟨l'.tail, rfl⟩]
  have hlength := congrArg List.length h
  rw [Option.some.inj hrest, List.length_append, List.length_append] at hlength
  omega

/-! ## Links that are found -/

/-- What comes behind a link that is found comes behind its end. -/
theorem WrittenLink.end_le_of_precedes {l : WrittenLink} {before after : List Char} {later : Text.Occurrence Link}
    (h : Text.Precedes readLink 0 (before ++ (l.toText ++ after)) (l.behind before) later) :
    before.length + l.toText.length ≤ later.start := by
  obtain ⟨front, rest, previous, size, hs, hstart, hread, hle⟩ := h
  obtain ⟨k, more, rfl, hfound, rfl⟩ := exists_link_of_readLink hread
  have hlength : before.length = front.length := hstart.trans (Nat.zero_add _)
  obtain ⟨ht, ho⟩ := Link.mk.inj hfound
  rw [l.length_toText_eq (List.append_inj hs hlength).2 ht ho]
  exact hle

/-- Two links that are found in a text are the same, or one of them ends before the other begins. -/
theorem same_or_apart {s before before' after after' : List Char} {l l' : WrittenLink}
    (hs : s = before ++ (l.toText ++ after)) (hs' : s = before' ++ (l'.toText ++ after'))
    (h : l.behind before ∈ occurrences readLink s) (h' : l'.behind before' ∈ occurrences readLink s) :
    (before.length = before'.length ∧ l.toText.length = l'.toText.length) ∨
      before.length + l.toText.length ≤ before'.length ∨ before'.length + l'.toText.length ≤ before.length := by
  have hpairs := Text.pairwise_precedes (r := readLink) none 0 0 s
  obtain ⟨earlier, later, he⟩ := List.append_of_mem h
  rw [← occurrences, he, List.pairwise_append, List.pairwise_cons] at hpairs
  obtain ⟨-, ⟨hlater, -⟩, hearlier⟩ := hpairs
  rw [he] at h'
  rcases List.mem_append.1 h' with h' | h'
  · exact .inr (.inr (l'.end_le_of_precedes (hs' ▸ hearlier _ h' _ List.mem_cons_self)))
  · rcases List.mem_cons.1 h' with h' | h'
    · have hlength : before.length = before'.length := congrArg Text.Occurrence.start h'.symm
      obtain ⟨ht, ho⟩ := Link.mk.inj (congrArg Text.Occurrence.found h'.symm)
      exact .inl ⟨hlength, l.length_toText_eq (List.append_inj (hs.symm.trans hs') hlength).2 ht ho⟩
    · exact .inr (.inl (l.end_le_of_precedes (hs ▸ hlater _ h')))

/-! ## Links that stay -/

/-- A link found in a longer text runs over a place of the text that it goes on behind: it begins there or before, and ends behind
that text. -/
def RunsOver (s longer : List Char) (place : Nat) : Prop :=
  ∃ (before : List Char) (l : WrittenLink) (after : List Char), longer = before ++ (l.toText ++ after) ∧
    l.behind before ∈ occurrences readLink longer ∧ before.length ≤ place ∧ s.length < before.length + l.toText.length

/-- No link reaches a carriage return at the end of a text. -/
theorem size_le_of_readLink_concat {before : Option Char} {s : List Char} {link : Link} {size : Nat}
    (h : readLink before (s ++ ['\r']) = some (link, size)) : 0 < size ∧ size ≤ s.length := by
  obtain ⟨l, rest, hs, -, rfl⟩ := exists_link_of_readLink h
  exact ⟨List.length_pos_iff.2 l.toText_ne_nil, l.length_toText_le (by decide) hs⟩

/-- When a text goes on, its links stay up to the first one that is run over. -/
theorem exists_kept_of_goesOn {s longer : List Char} (h : GoesOn s longer) :
    ∃ kept lost found, occurrences readLink s = kept ++ lost ∧ occurrences readLink longer = kept ++ found ∧
      ∀ l ∈ lost, RunsOver s longer l.start := by
  obtain ⟨front, rest, more, rfl, rfl, hrest, hmore, hfront⟩ := h.exists_front (isStable_readLink _)
    fun _ _ _ _ => size_le_of_readLink_concat
  rcases Text.occurrencesFrom_append (isStable_readLink more) none 0 (Nat.zero_le front.length) with
    hall | ⟨kept, lost, o, found, hs, hall, hcross, hlost⟩
  · exact ⟨occurrences readLink front, [], _, by rw [hfront, List.append_nil], hall, by simp⟩
  · refine ⟨kept, lost, o :: found, by rw [hfront, occurrences, hs], hall, fun lost' hlost' => ?_⟩
    obtain ⟨before, b, previous, size, rfl, -, hstart, hread, hlt⟩ := hcross
    obtain ⟨l, after, hb, hfound, rfl⟩ := exists_link_of_readLink hread
    have ho : o = l.behind before := by
      obtain ⟨start, found⟩ := o
      obtain rfl : start = before.length := by simpa using hstart
      exact congrArg _ hfound
    refine ⟨before, l, after, by rw [List.append_assoc, hb], ?_, ?_, ?_⟩
    · rw [occurrences, hall, ho]
      exact List.mem_append_right _ List.mem_cons_self
    · have hle := hlost lost' hlost'
      rwa [ho] at hle
    · have hlonger := l.add_two_le_length_toText hmore hb hlt
      rw [List.length_append, List.length_append]
      omega

/-- A link stays when the text goes on exactly when no link runs over its place. -/
theorem mem_occurrences_iff {s longer : List Char} (h : GoesOn s longer) {o : Text.Occurrence Link}
    (ho : o ∈ occurrences readLink s) : o ∈ occurrences readLink longer ↔ ¬RunsOver s longer o.start := by
  constructor
  · rintro hmem ⟨before', l', after', hlonger', hmem', hle, hlt⟩
    obtain ⟨front, rest, more, rfl, rfl, -, -, hfront⟩ := h.exists_front (isStable_readLink _)
      fun _ _ _ _ => size_le_of_readLink_concat
    rw [hfront] at ho
    obtain ⟨before, l, after, rfl, rfl⟩ := exists_behind_of_mem_occurrences ho
    have hends : before.length + l.toText.length ≤ (before ++ (l.toText ++ after) ++ rest).length := by
      simp only [List.length_append]
      omega
    have hlonger : before ++ (l.toText ++ after) ++ more = before ++ (l.toText ++ (after ++ more)) := by
      simp only [List.append_assoc]
    have hle : before'.length ≤ before.length := hle
    have hpos := List.length_pos_iff.2 l.toText_ne_nil
    rcases same_or_apart hlonger hlonger' hmem hmem' with ⟨hstart, hlength⟩ | hapart | hapart
    · omega
    · omega
    · omega
  · intro hno
    obtain ⟨kept, lost, found, hs, hlonger, hlost⟩ := exists_kept_of_goesOn h
    rw [hs] at ho
    rw [hlonger]
    rcases List.mem_append.1 ho with ho | ho
    · exact List.mem_append_left _ ho
    · exact absurd (hlost o ho) hno

/-- A link that runs over the end of a text is closed behind it. -/
theorem RunsOver.closing_mem {s more : List Char} {place : Nat} (h : RunsOver s (s ++ '\n' :: more) place) : ')' ∈ more := by
  obtain ⟨before, l, after, hs, -, -, hlt⟩ := h
  obtain ⟨front, hfront⟩ := l.exists_toText_eq
  have hall : (before ++ front) ++ ')' :: after = s ++ '\n' :: more := by
    rw [hs, hfront]
    simp only [List.append_assoc, List.singleton_append]
  have hle : s.length ≤ (before ++ front).length := by
    rw [hfront, List.length_append, List.length_singleton] at hlt
    rw [List.length_append]
    omega
  obtain ⟨middle, -, hmore⟩ := Text.exists_of_append_eq_append hall hle
  have hmem : ')' ∈ '\n' :: more := hmore ▸ List.mem_append_right middle List.mem_cons_self
  exact (List.mem_cons.1 hmem).resolve_left (by decide)

/-! ## References that stay -/

/-- A link makes the same reference when the text goes on. -/
theorem referenceOf_eq_of_goesOn {s longer : List Char} (h : GoesOn s longer) {o : Text.Occurrence Link}
    (ho : o ∈ occurrences readLink s) : referenceOf longer o = referenceOf s o := by
  obtain ⟨before, l, after, rfl, rfl⟩ := exists_behind_of_mem_occurrences ho
  have hlt : before.length + l.opening.length < (before ++ (l.toText ++ after)).length := by
    have hopening := l.length_opening_lt
    simp only [List.length_append]
    omega
  exact congrArg _ (h.lineAt_eq hlt)

/-- A reference stays when the text goes on, unless a link runs over the place of the link that makes it. -/
theorem mem_references_of_goesOn {text longer : String} (h : GoesOn text.toList longer.toList) {r : Reference}
    (hr : r ∈ references text) : r ∈ references longer ∨
      ∃ o ∈ occurrences readLink text.toList, referenceOf text.toList o = r ∧ RunsOver text.toList longer.toList o.start := by
  obtain ⟨hne, earlier, o, later, hocc, ho, hfirst⟩ := mem_references_iff.1 hr
  obtain ⟨kept, lost, found, hs, hlonger, hlost⟩ := exists_kept_of_goesOn h
  have hmem : ∀ e ∈ earlier ++ [o], e ∈ occurrences readLink text.toList := fun e he => by
    rw [hocc]
    simpa using List.mem_append_left later he
  rcases List.append_eq_append_iff.1 (hs.symm.trans hocc) with ⟨part, rfl, hpart⟩ | ⟨part, rfl, hpart⟩
  · refine .inr ⟨o, hmem o (by simp), ho, hlost o ?_⟩
    rw [hpart]
    exact List.mem_append_right _ List.mem_cons_self
  · cases part with
    | nil =>
      refine .inr ⟨o, hmem o (by simp), ho, hlost o ?_⟩
      rw [List.nil_append] at hpart
      exact hpart ▸ List.mem_cons_self
    | cons first part =>
      obtain ⟨rfl, -⟩ := List.cons.inj hpart
      refine .inl (mem_references_iff.2 ⟨hne, earlier, o, part ++ found, ?_, ?_, fun e he => ?_⟩)
      · rw [hlonger, List.append_assoc, List.cons_append]
      · rw [referenceOf_eq_of_goesOn h (hmem o (by simp)), ho]
      · rw [referenceOf_eq_of_goesOn h (hmem e (by simp [he]))]
        exact hfirst e he

end SkillLint.Markdown
