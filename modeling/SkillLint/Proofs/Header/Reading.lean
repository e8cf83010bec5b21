import SkillLint.Proofs.Document
import SkillLint.Proofs.Header.Meaning

/-!
# Reading a header gives what it means

The reader goes from line to line with a record, the keys it has seen, a mark that items still belong to the tool list, and
the findings so far. `Progress.Describes` says that these four are what the lines read so far mean; one more line keeps it
(`Describes.read`), so a whole run ends with the meaning of the header (`ofDocument_eq_meaning`).
-/

namespace SkillLint

namespace Header

/-- The progress is what the lines read so far mean, where the first of them has the given number in its document. -/
structure Progress.Describes (p : Progress) (number : Nat) (above : List (List Char)) : Prop where
  fields : p.fields = fieldsOf above
  seen : ∀ key, key ∈ p.seen ↔ key ∈ keysOf above
  collecting : p.collecting = awaitsItems above
  findings : p.findings = lineFindings number above

theorem isEntryOf_iff {key : String} {line : List Char} :
    isEntryOf key line = true ↔ isTopLevel line = true ∧ keyOf? line = some key := by
  simp [isEntryOf]

/-- A line changes no value when it is not top-level, when it has no key, and when its key has a value already. -/
theorem value?_append_eq {above : List (List Char)} {line : List Char} {key : String}
    (h : isEntryOf key line = true → key ∈ keysOf above) : value? key (above ++ [line]) = value? key above := by
  rw [value?_append]
  cases he : isEntryOf key line with
  | false => simp
  | true =>
    cases hv : value? key above with
    | none => exact absurd (h he) (value?_eq_none_iff.1 hv)
    | some value => simp

theorem value?_append_of_new {above : List (List Char)} {line : List Char} {key : String} (h : isEntryOf key line = true)
    (hn : key ∉ keysOf above) : value? key (above ++ [line]) = some (valueOf line) := by
  rw [value?_append, value?_eq_none_iff.2 hn, if_pos h]
  rfl

namespace Progress.Describes

variable {p : Progress} {number : Nat} {above : List (List Char)} {line : List Char}

/-- Behind a line that is not top-level nothing but the tools may have changed. -/
theorem of_not_isTopLevel (h : p.Describes number above) (hl : isTopLevel line = false) {q : Progress} (hs : q.seen = p.seen)
    (hc : q.collecting = p.collecting) (hf : q.findings = p.findings)
    (hq : q.fields = { p.fields with allowedTools := toolsOf (above ++ [line]) }) : q.Describes number (above ++ [line]) := by
  have he : ∀ key, isEntryOf key line = true → key ∈ keysOf above := fun key e => by simp [isEntryOf, hl] at e
  refine ⟨?_, fun key => ?_, ?_, ?_⟩
  · rw [hq, h.fields, fieldsOf, fieldsOf, value?_append_eq (he _), value?_append_eq (he _)]
  · have hk : keysOf (above ++ [line]) = keysOf above := by simp [keysOf_append, hl]
    rw [hs, hk]
    exact h.seen key
  · rw [hc, (toolsOf_append_of_not_isTopLevel hl above).2]
    exact h.collecting
  · rw [hf, h.findings]
    simp [lineFindings_append, lineFinding?, hl]

/-- A line that is not top-level adds an item at most. -/
theorem read_of_not_isTopLevel (h : p.Describes number above) (hl : isTopLevel line = false) :
    (p.read (number + above.length) (Line.ofText line)).Describes number (above ++ [line]) := by
  have ht := (toolsOf_append_of_not_isTopLevel hl above).1
  have htools : toolsOf above = p.fields.allowedTools := by
    rw [h.fields]
    rfl
  rcases ofText_of_not_isTopLevel hl with ⟨item, hi, hr⟩ | ⟨hi, hr⟩
  · rw [toolsOfItem, hi, Option.toList_some, List.flatMap_singleton, splitToolList, String.toList_ofList, ← h.collecting,
      htools] at ht
    rw [hr, Progress.read]
    split
    · rename_i hc
      rw [if_pos hc] at ht
      exact h.of_not_isTopLevel hl rfl rfl rfl (by rw [ht])
    · rename_i hc
      rw [if_neg hc] at ht
      exact h.of_not_isTopLevel hl rfl rfl rfl (by rw [ht]; simp)
  · have hp : p.read (number + above.length) (Line.ofText line) = p := by
      rcases hr with hr | hr <;> rw [hr, Progress.read]
    rw [toolsOfItem, hi, htools] at ht
    rw [hp]
    exact h.of_not_isTopLevel hl rfl rfl rfl (by rw [ht]; simp)

/-- A top-level line without a colon draws a finding and ends the items. -/
theorem read_of_malformed (h : p.Describes number above) (hl : isTopLevel line = true) (hc : ':' ∉ line) :
    (p.read (number + above.length) (Line.ofText line)).Describes number (above ++ [line]) := by
  have hk? : keyOf? line = none := if_neg hc
  have he : ∀ key, isEntryOf key line = false := fun key => by simp [isEntryOf, hk?]
  have hk : keysOf (above ++ [line]) = keysOf above := by simp [keysOf_append, hl, hk?]
  have htools : toolsOf (above ++ [line]) = toolsOf above ∧ awaitsItems (above ++ [line]) = false :=
    toolsOf_append_of_isTopLevel hl fun _ => he toolsKey
  obtain ⟨ht, ha⟩ := htools
  rw [ofText_eq_malformed hl hc, Progress.read]
  refine ⟨?_, fun key => by rw [hk]; exact h.seen key, ha.symm, ?_⟩
  · have hv : ∀ key, value? key (above ++ [line]) = value? key above := fun key =>
      value?_append_eq fun e => absurd e (by simp [he key])
    rw [fieldsOf, hv, hv, ht]
    exact h.fields
  · rw [lineFindings_append, lineFinding?, if_pos hl, hk?, h.findings]
    rfl

/-- An entry whose key has been seen draws a finding and ends the items. -/
theorem read_of_seen (h : p.Describes number above) (hl : isTopLevel line = true) {key : List Char}
    (hk : keyOf? line = some (String.ofList key)) (hr : Line.ofText line = .entry key (valueOf line))
    (hs : String.ofList key ∈ keysOf above) :
    (p.read (number + above.length) (Line.ofText line)).Describes number (above ++ [line]) := by
  have he : ∀ k, isEntryOf k line = true → k ∈ keysOf above := fun k e => by
    have := (isEntryOf_iff.1 e).2
    rw [hk] at this
    exact Option.some.inj this ▸ hs
  have htools : toolsOf (above ++ [line]) = toolsOf above ∧ awaitsItems (above ++ [line]) = false :=
    toolsOf_append_of_isTopLevel hl fun hn => Bool.eq_false_iff.2 fun e => value?_eq_none_iff.1 hn (he _ e)
  obtain ⟨ht, ha⟩ := htools
  rw [hr, Progress.read, if_pos ((h.seen _).2 hs)]
  refine ⟨?_, fun k => ?_, ha.symm, ?_⟩
  · rw [fieldsOf, value?_append_eq (he _), value?_append_eq (he _), ht]
    exact h.fields
  · rw [keysOf_append, if_pos hl, hk, Option.toList_some, List.mem_append, List.mem_singleton, ← h.seen]
    exact ⟨.inl, fun e => e.elim id fun e => (h.seen k).2 (e ▸ hs)⟩
  · rw [lineFindings_append, lineFinding?, if_pos hl, hk, h.findings]
    simp [hs]

theorem mem_seen_of_new (h : p.Describes number above) (hl : isTopLevel line = true) {key : String}
    (hk : keyOf? line = some key) (k : String) : k ∈ p.seen ++ [key] ↔ k ∈ keysOf (above ++ [line]) := by
  rw [keysOf_append, if_pos hl, hk, Option.toList_some, List.mem_append, List.mem_append, h.seen]

/-- The first entry of a key gives the key its value; an unknown key draws a finding. -/
theorem enter (h : p.Describes number above) (hl : isTopLevel line = true) {key : String} (hk : keyOf? line = some key)
    (hn : key ∉ keysOf above) :
    (p.enter (number + above.length) key (valueOf line)).Describes number (above ++ [line]) := by
  have he : ∀ k, isEntryOf k line = true ↔ k = key := fun k => by
    rw [isEntryOf_iff, hk, Option.some.injEq]
    exact ⟨fun e => e.2.symm, fun e => ⟨hl, e.symm⟩⟩
  have hother : ∀ k, k ≠ key → value? k (above ++ [line]) = value? k above := fun k e =>
    value?_append_eq fun e' => absurd ((he k).1 e') e
  have hown : value? key (above ++ [line]) = some (valueOf line) := value?_append_of_new ((he key).2 rfl) hn
  have htools : key ≠ toolsKey → toolsOf (above ++ [line]) = toolsOf above ∧ awaitsItems (above ++ [line]) = false :=
    fun e => toolsOf_append_of_isTopLevel hl fun _ => Bool.eq_false_iff.2 fun e' => e ((he _).1 e').symm
  have hfind : lineFindings number (above ++ [line]) = p.findings ++
      if key ∈ knownKeys then [] else [unknownKey (number + above.length) key] := by
    rw [lineFindings_append, lineFinding?, if_pos hl, hk, h.findings]
    by_cases hm : key ∈ knownKeys <;> simp [hn, hm]
  unfold Progress.enter
  by_cases h1 : key = "name"
  · obtain ⟨ht, ha⟩ := htools (by rw [h1]; decide)
    rw [if_pos h1]
    refine ⟨?_, mem_seen_of_new h hl hk, ha.symm, by rw [hfind, h1]; simp [knownKeys]⟩
    rw [fieldsOf, ht, hother "description" (by rw [h1]; decide), ← h1, hown, h.fields]
    rfl
  · rw [if_neg h1]
    by_cases h2 : key = "description"
    · obtain ⟨ht, ha⟩ := htools (by rw [h2]; decide)
      rw [if_pos h2]
      refine ⟨?_, mem_seen_of_new h hl hk, ha.symm, by rw [hfind, h2]; simp [knownKeys]⟩
      rw [fieldsOf, ht, hother "name" (Ne.symm h1), ← h2, hown, h.fields]
      rfl
    · rw [if_neg h2]
      by_cases h3 : key = "allowed-tools"
      · obtain ⟨ht, ha⟩ := toolsOf_append_of_isEntryOf ((he toolsKey).2 h3.symm) (value?_eq_none_iff.2 (h3 ▸ hn))
        rw [if_pos h3]
        refine ⟨?_, mem_seen_of_new h hl hk, ha.symm, by rw [hfind, h3]; simp [knownKeys]⟩
        rw [fieldsOf, ht, hother "name" (Ne.symm h1), hother "description" (Ne.symm h2), h.fields, splitToolList,
          String.toList_ofList]
        rfl
      · obtain ⟨ht, ha⟩ := htools h3
        have hf : fieldsOf (above ++ [line]) = fieldsOf above := by
          rw [fieldsOf, ht, hother "name" (Ne.symm h1), hother "description" (Ne.symm h2)]
          rfl
        rw [if_neg h3]
        split
        · rename_i hm
          exact ⟨h.fields.trans hf.symm, mem_seen_of_new h hl hk, ha.symm, by rw [hfind, if_pos hm, List.append_nil]⟩
        · rename_i hm
          exact ⟨h.fields.trans hf.symm, mem_seen_of_new h hl hk, ha.symm, by rw [hfind, if_neg hm]⟩

/-- One more line: whatever it says, the progress stays the meaning of the lines read. -/
theorem read (h : p.Describes number above) (line : List Char) :
    (p.read (number + above.length) (Line.ofText line)).Describes number (above ++ [line]) := by
  cases hl : isTopLevel line with
  | false => exact h.read_of_not_isTopLevel hl
  | true =>
    by_cases hc : ':' ∈ line
    · obtain ⟨key, hk, hr⟩ := ofText_eq_entry hl hc
      by_cases hs : String.ofList key ∈ keysOf above
      · exact h.read_of_seen hl hk hr hs
      · rw [hr, Progress.read, if_neg (mt (h.seen _).1 hs)]
        exact h.enter hl hk hs
    · exact h.read_of_malformed hl hc

/-- More lines: the progress at their end is the meaning of all lines read. -/
theorem readAll (h : p.Describes number above) (ls : List (List Char)) :
    (p.readAll (number + above.length) ls).Describes number (above ++ ls) := by
  induction ls generalizing p above with
  | nil =>
    rw [List.append_nil]
    exact h
  | cons line ls ih =>
    have := ih (h.read line)
    rw [List.length_append, List.length_singleton, ← Nat.add_assoc, List.append_assoc] at this
    exact this

theorem start (number : Nat) : Progress.start.Describes number [] :=
  ⟨rfl, fun _ => Iff.rfl, rfl, rfl⟩

end Progress.Describes

theorem describes_readAll_start (number : Nat) (header : List (List Char)) :
    (Progress.start.readAll number header).Describes number header :=
  (Progress.Describes.start number).readAll header

end Header

/-- What a document means: the fields and findings of its header, and the two texts around its second delimiter. -/
def Document.meaning (d : Document) : Extraction where
  fields := Header.fieldsOf d.header
  raw := d.headerText
  bodyStart := d.bodyStart
  body := d.bodyText
  findings := Header.lineFindings d.headerStart d.header ++ Header.missingFields (Header.fieldsOf d.header)

/-- Reading a document gives what it means. -/
theorem Extraction.ofDocument_eq_meaning (d : Document) : ofDocument d = d.meaning := by
  have h := Header.describes_readAll_start d.headerStart d.header
  rw [ofDocument, h.fields, h.findings, Document.meaning]

/-- Reading a text gives nothing exactly when the text has fewer than two delimiter lines. Otherwise the text is cut at the
first two of them, and reading it gives what the document so found means. -/
theorem Extraction.ofText?_eq_meaning (content : String) :
    (ofText? content = none ↔ Document.ofText? content = none) ∧
      (Document.ofText? content = none ↔ (Text.lines content.toList).countP Document.isDelimiter < 2) ∧
      (∀ d, Document.ofText? content = some d ↔ d.IsCutOf (Text.lines content.toList)) ∧
      ofText? content = (Document.ofText? content).map Document.meaning := by
  refine ⟨?_, Document.ofText?_eq_none_iff, fun d => Document.ofText?_eq_some_iff, ?_⟩
  · rw [ofText?, Option.map_eq_none_iff]
  · rw [ofText?, funext ofDocument_eq_meaning]

end SkillLint
