import SkillLint.Proofs.Markdown.Link
import SkillLint.Proofs.Template.Builtin
import SkillLint.Proofs.Template.Title
import SkillLint.Proofs.Verdict

/-!
# The document of a new package

The document that a built-in template is made into, cut at its delimiters, and what makes it sound. The header holds the name
and the flattened description without quotes around them, so reading it takes off quotes that the description itself has at its
ends; the body is prose.
-/

namespace SkillLint.Template

open Header (entryLine)

/-- A new document, cut at its delimiters. -/
def newDocument (name description title : List Char) (more : List String) : Document where
  preamble := []
  header := [entryLine "name" name, entryLine "description" description]
  body := bodyLines title more

/-! ## The body -/

theorem isLine_of_isPlain {s : List Char} (h : ∀ c ∈ s, isPlain c = true) : Text.IsLine s :=
  ⟨fun hm => (isPlain_iff.1 (h _ hm)).1 rfl, fun hl => (isPlain_iff.1 (h _ (List.mem_of_getLast? hl))).2.1 rfl⟩

/-- The characters of the body are line feeds, those of the title line and those of the further lines. -/
theorem mem_bodyText {name description title : List Char} {more : List String} {c : Char}
    (h : c ∈ (newDocument name description title more).bodyText.toList) :
    c ∈ ['\n', '#', ' '] ∨ c ∈ title ∨ ∃ line ∈ more, c ∈ line.toList := by
  rw [Document.bodyText, String.toList_ofList] at h
  rcases Text.mem_intercalate h with h | ⟨line, hl, hc⟩
  · exact .inl (by simp [List.mem_singleton.1 h])
  · simp only [newDocument, bodyLines, List.mem_cons, List.mem_map] at hl
    rcases hl with rfl | rfl | ⟨text, ht, rfl⟩
    · exact absurd hc List.not_mem_nil
    · rcases List.mem_append.1 hc with hc | hc
      · exact .inl (List.mem_cons_of_mem _ hc)
      · exact .inr (.inl hc)
    · exact .inr (.inr ⟨text, ht, hc⟩)

/-- The lines of a body are read back from its text. -/
theorem lines_bodyLines {title : List Char} {more : List String} (ht : ∀ c ∈ title, isProse c = true)
    (hm : ∀ line ∈ more, ∀ c ∈ line.toList, isPlain c = true) :
    Text.lines (Text.endLines (bodyLines title more)) = bodyLines title more := by
  have hall : ∀ l ∈ bodyLines title more, Text.IsLine l := by
    intro l hl
    have hchars : ∀ c ∈ l, isPlain c = true := by
      simp only [bodyLines, List.mem_cons, List.mem_map] at hl
      rcases hl with rfl | rfl | ⟨text, htext, rfl⟩
      · simp
      · intro c hc
        rcases List.mem_append.1 hc with hc | hc
        · have hmark : ∀ d ∈ ['#', ' '], isPlain d = true := List.all_eq_true.1 (by decide)
          exact hmark c hc
        · exact (isProse_iff.1 (ht c hc)).1
      · exact hm text htext
    exact isLine_of_isPlain hchars
  have := Text.lines_endLines_append hall []
  rwa [List.append_nil, Text.lines, List.append_nil] at this

/-- The links of a body stand behind its title. -/
theorem links_bodyText {name description title : List Char} {more : List String} (ht : ∀ c ∈ title, isProse c = true)
    (hne : more ≠ []) : Markdown.links (newDocument name description title more).bodyText.toList =
      Markdown.links (Text.joinLines (more.map String.toList)) := by
  have hplain : '[' ∉ ['\n', '#', ' '] ++ title ++ ['\n'] := by
    intro hm
    simp only [List.mem_append] at hm
    rcases hm with (hm | hm) | hm
    · exact absurd hm (by decide)
    · exact (isProse_iff.1 (ht _ hm)).2 rfl
    · exact absurd hm (by decide)
  have hbody : (newDocument name description title more).bodyText.toList =
      (['\n', '#', ' '] ++ title ++ ['\n']) ++ Text.joinLines (more.map String.toList) := by
    rw [Document.bodyText, String.toList_ofList, newDocument, bodyLines, Text.joinLines_cons _ (by simp),
      Text.joinLines_cons _ (by simpa using hne)]
    simp
  rw [hbody, Markdown.links_append hplain]

/-! ## The header -/

/-- The values of the two entries of a new document. -/
theorem value?_header (name description : List Char) :
    Header.value? "name" [entryLine "name" name, entryLine "description" description] = some (Text.trim name) ∧
      Header.value? "description" [entryLine "name" name, entryLine "description" description] =
        some (Text.trim description) := by
  have hn : Header.isEntryOf "name" (entryLine "name" name) = true :=
    (Header.isEntryOf_of_knownKey (by decide) _ _).2 rfl
  have hd : Header.isEntryOf "description" (entryLine "description" description) = true :=
    (Header.isEntryOf_of_knownKey (by decide) _ _).2 rfl
  have hnd : ¬Header.isEntryOf "description" (entryLine "name" name) = true := fun h =>
    absurd ((Header.isEntryOf_of_knownKey (by decide) _ _).1 h) (by decide)
  constructor
  · rw [Header.value?, List.find?_cons_of_pos hn, Option.map_some, Header.valueOf_entryLine (by decide)]
  · rw [Header.value?, List.find?_cons_of_neg hnd, List.find?_cons_of_pos hd, Option.map_some,
      Header.valueOf_entryLine (by decide)]

/-! ## The whole document -/

theorem not_blank_of_isNameChar {c : Char} (h : Check.isNameChar c = true) :
    Text.isBlank c = false ∧ c ≠ '"' ∧ c ≠ '\'' :=
  Check.forall_isNameChar (p := fun c => Text.isBlank c = false ∧ c ≠ '"' ∧ c ≠ '\'') (by decide) h

section Sound

variable {name description title : List Char} {more : List String}

/-- A valid name has no blanks at its ends, and no quotes. -/
theorem trim_of_validName {most : Nat} (hn : Check.ValidName name most) :
    Text.trim name = name ∧ Header.unquote name = name := by
  have hchar : ∀ c ∈ name, Text.isBlank c = false ∧ c ≠ '"' ∧ c ≠ '\'' := fun c hc =>
    not_blank_of_isNameChar (Check.isNameChar_iff.2 (hn.chars c hc))
  exact ⟨Text.trim_of_ends (fun c hc => (hchar c (List.mem_of_mem_head? hc)).1)
      fun c hc => (hchar c (List.mem_of_getLast? hc)).1,
    Header.unquote_of_head fun c hc => (hchar c (List.mem_of_mem_head? hc)).2⟩

/-- A flattened valid description is valid exactly when it does not become blank with its quotes taken off. -/
theorem validDescription_unquote_flatten_iff {most : Nat} (hd : Check.ValidDescription description most) :
    Check.ValidDescription (Header.unquote (Text.flatten description)) most ↔
      Text.isBlankText (Header.unquote (Text.flatten description)) = false := by
  have hsub := Header.unquote_sublist (Text.flatten description)
  have hmem : ∀ c, c ≠ ' ' → c ∈ Header.unquote (Text.flatten description) → c ∈ description := by
    intro c hc hm
    rcases Text.mem_flatten (hsub.subset hm) with h | h
    · exact absurd h hc
    · exact h.1
  have hlen := Nat.le_trans hsub.length_le (Text.length_flatten_le description)
  rw [Bool.eq_false_iff, Ne, Text.isBlankText_iff]
  constructor
  · intro h hblank
    obtain ⟨c, hc, hn⟩ := h.not_blank
    exact absurd (hblank c hc) (by rw [hn]; exact Bool.false_ne_true)
  · intro h
    refine ⟨?_, Nat.le_trans hlen hd.length_le, fun hm => hd.no_angle_brackets.1 (hmem _ (by decide) hm),
      fun hm => hd.no_angle_brackets.2 (hmem _ (by decide) hm)⟩
    simpa using h

/-- A new document is cut at its delimiters as it was put together. -/
theorem ofText?_newDocument {most : Nat} (hn : Check.ValidName name most) (ht : ∀ c ∈ title, isProse c = true)
    (hm : ∀ line ∈ more, ∀ c ∈ line.toList, isPlain c = true) :
    Document.ofText? (Header.documentText [entryLine "name" name, entryLine "description" (Text.flatten description)]
      (Text.endLines (bodyLines title more))) = some (newDocument name (Text.flatten description) title more) := by
  have hname : Text.IsLine name := isLine_of_isPlain fun c hc =>
    (isProse_iff.1 (isProse_of_isNameChar (Check.isNameChar_iff.2 (hn.chars c hc))).1).1
  have hflat : Text.IsLine (Text.flatten description) := by
    have hbreak : ∀ {c}, c ∈ Text.flatten description → c ≠ '\n' ∧ c ≠ '\r' := by
      intro c hc
      rcases Text.mem_flatten hc with rfl | ⟨-, hb⟩
      · decide
      · exact ⟨fun e => absurd hb (by subst e; decide), fun e => absurd hb (by subst e; decide)⟩
    exact ⟨fun h => (hbreak h).1 rfl, fun h => (hbreak (List.mem_of_getLast? h)).2 rfl⟩
  have hlines : ∀ l ∈ [entryLine "name" name, entryLine "description" (Text.flatten description)],
      Text.IsLine l ∧ Document.isDelimiter l = false := by
    intro l hl
    simp only [List.mem_cons, List.not_mem_nil, or_false] at hl
    rcases hl with rfl | rfl
    · exact ⟨Header.isLine_entryLine (by decide) hname,
        Header.isDelimiter_of_isTopLevel (Header.isTopLevel_of_knownKey (by decide) _)⟩
    · exact ⟨Header.isLine_entryLine (by decide) hflat,
        Header.isDelimiter_of_isTopLevel (Header.isTopLevel_of_knownKey (by decide) _)⟩
  rw [Header.ofText?_documentText (fun l hl => (hlines l hl).1) (fun l hl => (hlines l hl).2),
    lines_bodyLines ht hm, newDocument]

/-- A new document with a valid name and a valid description is sound, provided that the files are there that it refers to,
exactly when the description does not become blank on its way through the header. -/
theorem isSound_newDocument_iff {thresholds : Thresholds} {present : String → Bool}
    (hn : Check.ValidName name thresholds.maxNameLength)
    (hd : Check.ValidDescription description thresholds.maxDescriptionLength) (ht : ∀ c ∈ title, isProse c = true)
    (hm : ∀ line ∈ more, ∀ c ∈ line.toList, isPlain c = true)
    (hf : Check.HasFiles (newDocument name (Text.flatten description) title more).bodyText present) :
    (newDocument name (Text.flatten description) title more).IsSound thresholds present ↔
      Text.isBlankText (Header.unquote (Text.flatten description)) = false := by
  obtain ⟨hvn, hvd⟩ := value?_header name (Text.flatten description)
  obtain ⟨htrim, hunquote⟩ := trim_of_validName hn
  rw [htrim] at hvn
  rw [Text.trim_flatten] at hvd
  rw [← validDescription_unquote_flatten_iff hd]
  constructor
  · intro h
    obtain ⟨value, hv, hvalid⟩ := h.description
    exact Option.some.inj (hvd.symm.trans hv) ▸ hvalid
  · intro h
    refine ⟨⟨name, hvn, by rwa [hunquote]⟩, ⟨_, hvd, h⟩, Check.hasNoSeparator_of_no_backslash fun hc => ?_, hf⟩
    rcases mem_bodyText hc with hc | hc | ⟨line, hl, hc⟩
    · exact absurd hc (by decide)
    · exact (isPlain_iff.1 (isProse_iff.1 (ht _ hc)).1).2.2 rfl
    · exact (isPlain_iff.1 (hm line hl _ hc)).2.2 rfl

end Sound

end SkillLint.Template
