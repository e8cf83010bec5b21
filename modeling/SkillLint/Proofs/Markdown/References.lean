import SkillLint.Proofs.Markdown.Link
import SkillLint.Proofs.Markdown.Pattern
import SkillLint.Proofs.Text.Position

/-!
# The references of a text

The references of a text are the first ones with their targets among those that its links make (`firstOfEach_references`).
Where a link stands tells the line of its reference, so a text that is put together from links and text without brackets is
taken apart again (`map_referenceOf_occurrencesFrom`).
-/

namespace SkillLint.Markdown

/-! ## References and the links they come from -/

/-- The match that a link makes behind some text. -/
def WrittenLink.behind (l : WrittenLink) (before : List Char) : Text.Occurrence Link :=
  ⟨before.length, ⟨l.target, l.opening.length⟩⟩

/-- What the search finds is the match of a link that stands in the text. -/
theorem exists_behind_of_mem_occurrences {s : List Char} {o : Text.Occurrence Link} (h : o ∈ Text.occurrences readLink s) :
    ∃ (before : List Char) (l : WrittenLink) (after : List Char), s = before ++ (l.toText ++ after) ∧
      o = l.behind before := by
  obtain ⟨before, rest, previous, size, rfl, hstart, hread⟩ := Text.exists_of_mem_occurrences h
  obtain ⟨l, after, rfl, hfound, -⟩ := exists_link_of_readLink hread
  obtain ⟨start, found⟩ := o
  obtain rfl : start = before.length := hstart
  exact ⟨before, l, after, rfl, congrArg _ hfound⟩

/-- A reference comes from a link behind some text: it has the target of the link, and the line on which the target begins. -/
structure Reference.ComesFrom (r : Reference) (body before : List Char) (l : WrittenLink) : Prop where
  stands : ∃ after, body = before ++ (l.toText ++ after)
  target : r.target = String.ofList (bareTarget l.target)
  line : r.line = (before ++ l.opening).count '\n'

/-- The reference that a link makes has the line on which the target of the link begins. -/
theorem referenceOf_toText (before : List Char) (l : WrittenLink) (after : List Char) :
    referenceOf (before ++ (l.toText ++ after)) ⟨before.length, ⟨l.target, l.opening.length⟩⟩ =
      ⟨String.ofList (bareTarget l.target), (before ++ l.opening).count '\n'⟩ := by
  have hbody : before ++ (l.toText ++ after) = (before ++ l.opening) ++ (l.target ++ l.tail.toText ++ after) := by
    simp only [WrittenLink.toText, List.append_assoc]
  rw [referenceOf, hbody, ← List.length_append, Text.lineAt_append]

/-- What the search finds makes a reference that comes from a link with the target that was found. -/
theorem comesFrom_referenceOf {s : List Char} {o : Text.Occurrence Link} (h : o ∈ Text.occurrences readLink s) :
    ∃ before l, o.found.target = l.target ∧ (referenceOf s o).ComesFrom s before l := by
  obtain ⟨before, l, after, rfl, rfl⟩ := exists_behind_of_mem_occurrences h
  refine ⟨before, l, rfl, ⟨after, rfl⟩, ?_, ?_⟩
  · rw [WrittenLink.behind, referenceOf_toText]
  · rw [WrittenLink.behind, referenceOf_toText]

/-- The lines of the targets never decrease, since every target ends before the next link. -/
theorem pairwise_line_referenceOf (s : List Char) :
    ((Text.occurrences readLink s).map (referenceOf s)).Pairwise fun r later => r.line ≤ later.line := by
  have hreach : ∀ before s link size, readLink before s = some (link, size) → link.offset ≤ size := by
    intro before s link size h
    obtain ⟨l, rest, -, rfl, rfl⟩ := exists_link_of_readLink h
    exact Nat.le_of_lt l.length_opening_lt
  rw [List.pairwise_map]
  refine (Text.pairwise_occurrencesFrom hreach none 0 0 s).imp ?_
  intro o later h
  have hle : o.start + o.found.offset ≤ later.start + later.found.offset := Nat.le_trans h (Nat.le_add_right _ _)
  exact (List.take_sublist_take_left hle).count_le '\n'

/-! ## Texts put together from links -/

/-- A link that leads somewhere, and the text between it and the next link. -/
structure Passage where
  link : WrittenLink
  destination : List Char
  gap : List Char
  leads : LeadsTo link.target destination
  no_bracket : '[' ∉ gap

/-- A passage as it is written. -/
def Passage.toText (p : Passage) : List Char :=
  p.link.toText ++ p.gap

/-- The references of the links behind some text: where each leads, and the line on which its target begins. -/
def referencesOf (before : List Char) : List Passage → List Reference
  | [] => []
  | p :: more =>
    ⟨String.ofList p.destination, (before ++ p.link.opening).count '\n'⟩ :: referencesOf (before ++ p.toText) more

theorem target_ne_of_mem_referencesOf {before : List Char} {passages : List Passage} :
    ∀ r ∈ referencesOf before passages, r.target ≠ "" := by
  induction passages generalizing before with
  | nil => simp [referencesOf]
  | cons p more ih =>
    refine List.forall_mem_cons.2 ⟨fun he => p.leads.ne_nil ?_, ih⟩
    exact String.ofList_injective he

/-- The search finds the links of a text put together from them, and nothing else. -/
theorem map_referenceOf_occurrencesFrom (front : List Char) (before : Option Char) (passages : List Passage) :
    (Text.occurrencesFrom readLink before 0 front.length (passages.flatMap Passage.toText)).map
      (referenceOf (front ++ passages.flatMap Passage.toText)) = referencesOf front passages := by
  induction passages generalizing front before with
  | nil => rfl
  | cons p more ih =>
    have htext : (p :: more).flatMap Passage.toText = p.link.toText ++ (p.gap ++ more.flatMap Passage.toText) := by
      rw [List.flatMap_cons, Passage.toText, List.append_assoc]
    have hread := readLink_toText p.leads before (p.gap ++ more.flatMap Passage.toText)
    obtain ⟨before', hgap⟩ := occurrencesFrom_gap p.no_bracket (p.link.toText.getLast?.or before)
      (front.length + p.link.toText.length) (more.flatMap Passage.toText)
    have hlength : front.length + p.link.toText.length + p.gap.length = (front ++ p.toText).length := by
      rw [Passage.toText, List.length_append, List.length_append, Nat.add_assoc]
    have hwhole : front ++ (p.link.toText ++ (p.gap ++ more.flatMap Passage.toText)) =
        (front ++ p.toText) ++ more.flatMap Passage.toText := by
      simp only [Passage.toText, List.append_assoc]
    rw [htext, Text.occurrencesFrom_of_match p.link.toText_ne_nil hread, hgap, hlength, List.map_cons, referenceOf_toText,
      p.leads.bareTarget_eq, hwhole, ih, referencesOf]

/-- The references of a text put together from links are the first ones with their targets. -/
theorem firstOfEach_referencesOf {gap : List Char} (h : '[' ∉ gap) (passages : List Passage) :
    FirstOfEach Reference.target (referencesOf gap passages)
      (references (String.ofList (gap ++ passages.flatMap Passage.toText))) := by
  obtain ⟨before, hgap⟩ := occurrencesFrom_gap h none 0 (passages.flatMap Passage.toText)
  have hmade : (Text.occurrences readLink (gap ++ passages.flatMap Passage.toText)).map
      (referenceOf (gap ++ passages.flatMap Passage.toText)) = referencesOf gap passages := by
    rw [Text.occurrences, hgap, Nat.zero_add, map_referenceOf_occurrencesFrom]
  have hkept : (referencesOf gap passages).filter (fun r => r.target != "") = referencesOf gap passages :=
    List.filter_eq_self.2 fun r hr => by simpa using target_ne_of_mem_referencesOf r hr
  have hfirst := firstOfEach_references (String.ofList (gap ++ passages.flatMap Passage.toText))
  rwa [String.toList_ofList, hmade, hkept] at hfirst

/-! ## What is extracted -/

/-- Links between gaps without an opening bracket are read back: of the references that they make the first ones with their
targets, in order. Of any body, the references have targets that are not empty and of which no two are equal, their lines never
decrease, and each comes from a link in the body. -/
theorem references_roundTrip :
    (∀ (gap : List Char) (passages : List Passage), '[' ∉ gap →
      FirstOfEach Reference.target (referencesOf gap passages)
        (references (String.ofList (gap ++ passages.flatMap Passage.toText)))) ∧
    ∀ body : String,
      (∀ r ∈ references body, r.target ≠ "") ∧ ((references body).map Reference.target).Nodup ∧
        ((references body).Pairwise fun r later => r.line ≤ later.line) ∧
        ∀ r ∈ references body, ∃ before l, r.ComesFrom body.toList before l := by
  refine ⟨fun gap passages h => firstOfEach_referencesOf h passages, fun body => ?_⟩
  have hfirst := firstOfEach_references body
  refine ⟨fun r hr => ?_, hfirst.distinct, ?_, fun r hr => ?_⟩
  · simpa using (List.mem_filter.1 (hfirst.sublist.subset hr)).2
  · exact (pairwise_line_referenceOf body.toList).sublist (hfirst.sublist.trans List.filter_sublist)
  · obtain ⟨o, ho, rfl⟩ := List.mem_map.1 (List.mem_filter.1 (hfirst.sublist.subset hr)).1
    obtain ⟨before, l, -, hfrom⟩ := comesFrom_referenceOf ho
    exact ⟨before, l, hfrom⟩

/-- A guide that is linked twice, the first time from a text with a bracket and a line end in it, and notes whose name has a
blank. -/
theorem references_roundTrip_guide :
    let guide : Passage :=
      ⟨⟨"the [new\nguide".toList, [' '], "docs/g(1).md".toList,
          ⟨some ⟨[' '], "Guide".toList, by decide, List.forall_mem_singleton.2 rfl, by decide⟩, [], List.forall_mem_nil _⟩,
          by decide, List.forall_mem_singleton.2 rfl, .bare (isBareRun_iff.2 rfl) (by decide)⟩,
        "docs/g(1).md".toList, " or\n".toList, .bare (isBareRun_iff.2 rfl) (by decide) (by decide) (by decide), by decide⟩
    let notes : Passage :=
      ⟨⟨"notes".toList, [], '<' :: ("my notes".toList ++ ['>']), ⟨none, [], List.forall_mem_nil _⟩, by decide,
          List.forall_mem_nil _, .angle (by decide)⟩,
        "my notes".toList, ", ".toList, .angle (by decide) (by decide) (by decide) (by decide), by decide⟩
    let again : Passage :=
      ⟨⟨"again".toList, [], "docs/g(1).md".toList, ⟨none, [], List.forall_mem_nil _⟩, by decide, List.forall_mem_nil _,
          .bare (isBareRun_iff.2 rfl) (by decide)⟩,
        "docs/g(1).md".toList, ".".toList, .bare (isBareRun_iff.2 rfl) (by decide) (by decide) (by decide), by decide⟩
    let body := "See [the [new\nguide]( docs/g(1).md \"Guide\") or\n[notes](<my notes>), [again](docs/g(1).md)."
    '[' ∉ "See ".toList ∧ String.ofList ("See ".toList ++ [guide, notes, again].flatMap Passage.toText) = body ∧
      FirstOfEach Reference.target [⟨"docs/g(1).md", 1⟩, ⟨"my notes", 2⟩, ⟨"docs/g(1).md", 2⟩] (references body) ∧
      references body = [⟨"docs/g(1).md", 1⟩, ⟨"my notes", 2⟩] := by
  intro guide notes again body
  have hgap : '[' ∉ "See ".toList := by decide
  have hbody : String.ofList ("See ".toList ++ [guide, notes, again].flatMap Passage.toText) = body := by
    decide +kernel
  have hmade : referencesOf "See ".toList [guide, notes, again] =
      [⟨"docs/g(1).md", 1⟩, ⟨"my notes", 2⟩, ⟨"docs/g(1).md", 2⟩] := by decide
  have hfirst := references_roundTrip.1 "See ".toList [guide, notes, again] hgap
  rw [hbody, hmade] at hfirst
  exact ⟨hgap, hbody, hfirst, by decide +kernel⟩

end SkillLint.Markdown
