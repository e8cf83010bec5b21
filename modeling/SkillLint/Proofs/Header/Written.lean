import SkillLint.Proofs.Document
import SkillLint.Proofs.Header.Meaning
import SkillLint.Proofs.Text.Continued

/-!
# Headers as they are written

The lines that a writer of documents puts down: entries, a known key with a colon and a value behind it, and items, with a
hyphen behind some blanks. For each it is said what the line means to a reader. Lines between two delimiters and a body make
up a document, and a header in which every key is known and stands once draws no finding.
-/

namespace SkillLint.Header

/-- The line of an entry: a key, a colon, a space and the value. -/
def entryLine (key : String) (value : List Char) : List Char :=
  key.toList ++ ':' :: ' ' :: value

/-- The line of an item: blanks, a hyphen, a space and the text of the item. -/
def itemLine (indent text : List Char) : List Char :=
  indent ++ '-' :: ' ' :: text

/-! ## Single lines -/

/-- A line that starts with a character other than a blank, a number sign or a hyphen is top-level. -/
theorem isTopLevel_cons {c : Char} (rest : List Char) (hb : Text.isBlank c = false) (h1 : c ≠ '#') (h2 : c ≠ '-') :
    isTopLevel (c :: rest) = true := by
  have hh : ∀ d ∈ (c :: rest).head?, Text.isBlank d = false := fun d hd => Option.some.inj hd ▸ hb
  obtain ⟨post, hl, hp⟩ := Text.exists_trim_append_blanks hh
  cases ht : Text.trim (c :: rest) with
  | nil =>
    rw [ht, List.nil_append] at hl
    have := hp c (hl ▸ List.mem_cons_self)
    exact absurd this (by simp [hb])
  | cons d r =>
    rw [ht, List.cons_append] at hl
    obtain ⟨rfl, -⟩ := List.cons.inj hl
    simp [isTopLevel, ht, hb, h1, h2]

/-- What the known keys have in common: no colon, no blanks around them, and a first letter that marks neither a comment nor
an item. -/
theorem knownKeys_plain : ∀ key ∈ knownKeys, ':' ∉ key.toList ∧ Text.trim key.toList = key.toList ∧ '\n' ∉ key.toList ∧
    key.toList.head?.any (fun c => !Text.isBlank c && c != '#' && c != '-') = true := by
  decide

/-- A line that starts with a known key is top-level. -/
theorem isTopLevel_of_knownKey {key : String} (h : key ∈ knownKeys) (rest : List Char) :
    isTopLevel (key.toList ++ rest) = true := by
  obtain ⟨-, -, -, hh⟩ := knownKeys_plain key h
  cases hk : key.toList with
  | nil => simp [hk] at hh
  | cons c r =>
    simp only [hk, List.head?_cons, Option.any_some, Bool.and_eq_true, Bool.not_eq_true', bne_iff_ne] at hh
    exact isTopLevel_cons (r ++ rest) hh.1.1 hh.1.2 hh.2

theorem keyOf?_of_knownKey {key : String} (h : key ∈ knownKeys) (rest : List Char) :
    keyOf? (key.toList ++ ':' :: rest) = some key := by
  obtain ⟨hc, ht, -, -⟩ := knownKeys_plain key h
  rw [keyOf?_append hc, ht, String.ofList_toList]

theorem isEntryOf_of_knownKey {key : String} (h : key ∈ knownKeys) (rest : List Char) (k : String) :
    isEntryOf k (key.toList ++ ':' :: rest) = true ↔ k = key := by
  rw [isEntryOf, isTopLevel_of_knownKey h, keyOf?_of_knownKey h, Bool.true_and, beq_iff_eq, Option.some.injEq]
  exact eq_comm

theorem valueOf_of_knownKey {key : String} (h : key ∈ knownKeys) (rest : List Char) :
    valueOf (key.toList ++ ':' :: rest) = Text.trim rest :=
  valueOf_append (knownKeys_plain key h).1 rest

theorem valueOf_entryLine {key : String} (h : key ∈ knownKeys) (value : List Char) :
    valueOf (entryLine key value) = Text.trim value := by
  rw [entryLine, valueOf_of_knownKey h, Text.trim_cons_of_blank (by decide)]

/-- An entry line is a line when its value is one. -/
theorem isLine_entryLine {key : String} (h : key ∈ knownKeys) {value : List Char} (hv : Text.IsLine value) :
    Text.IsLine (entryLine key value) := by
  refine ⟨fun hm => ?_, fun hl => ?_⟩
  · rcases List.mem_append.1 hm with hm | hm
    · exact (knownKeys_plain key h).2.2.1 hm
    · simp only [List.mem_cons, Char.reduceEq, false_or] at hm
      exact hv.1 hm
  · rw [entryLine, List.getLast?_append, List.getLast?_cons_cons, List.getLast?_cons] at hl
    cases hg : value.getLast? with
    | none => simp [hg] at hl
    | some c =>
      rw [hg] at hl
      exact hv.2 (hg.trans hl)

/-- A top-level line is no delimiter. -/
theorem isDelimiter_of_isTopLevel {line : List Char} (h : isTopLevel line = true) :
    Document.isDelimiter line = false := by
  rw [Bool.eq_false_iff]
  intro hd
  rw [Document.isDelimiter, beq_iff_eq] at hd
  simp [isTopLevel, hd] at h

section Item

variable {indent text : List Char} (hi : ∀ c ∈ indent, Text.isBlank c = true)
  (ht : ∀ c ∈ text.getLast?, Text.isBlank c = false) (hne : text ≠ [])

include hi ht hne in
/-- An item line without the blanks before its hyphen. -/
theorem trim_itemLine : Text.trim (itemLine indent text) = '-' :: ' ' :: text := by
  rw [itemLine, Text.trim_append_of_blanks hi]
  refine Text.trim_of_ends (fun c hc => ?_) fun c hc => ?_
  · obtain rfl := Option.some.inj hc
    decide
  · rw [List.getLast?_cons_cons, List.getLast?_cons_of_ne_nil hne] at hc
    exact ht c hc

include hi ht hne in
theorem isTopLevel_itemLine : isTopLevel (itemLine indent text) = false := by
  simp [isTopLevel, trim_itemLine hi ht hne]

include hi ht hne in
theorem itemOf?_itemLine : itemOf? (itemLine indent text) = some (' ' :: text) := by
  rw [itemOf?, trim_itemLine hi ht hne]
  rfl

include hi ht hne in
/-- An item line is no delimiter: there is a space behind its hyphen. -/
theorem isDelimiter_itemLine : Document.isDelimiter (itemLine indent text) = false := by
  rw [Document.isDelimiter, trim_itemLine hi ht hne, beq_eq_false_iff_ne]
  simp

end Item

/-! ## Quotes -/

/-- Without a quote at its front a text has none to take off. -/
theorem unquote_of_head {s : List Char} (h : ∀ c ∈ s.head?, c ≠ '"' ∧ c ≠ '\'') : unquote s = s := by
  have hnone : ∀ quote ∈ ['"', '\''], between? quote s = none := by
    intro quote hq
    cases hb : between? quote s with
    | none => rfl
    | some inner =>
      rw [between?_eq_some_iff] at hb
      have hh := h quote (by rw [hb]; rfl)
      rcases List.mem_cons.1 hq with rfl | hq
      · exact absurd rfl hh.1
      · exact absurd (List.mem_singleton.1 hq) hh.2
  rw [unquote, hnone _ (by simp), hnone _ (by simp)]
  rfl

/-- Taking off quotes takes away characters only. -/
theorem unquote_sublist (s : List Char) : (unquote s).Sublist s := by
  have hbetween : ∀ quote inner, between? quote s = some inner → inner.Sublist s := by
    intro quote inner hb
    rw [between?_eq_some_iff] at hb
    rw [hb]
    exact (List.sublist_append_left inner [quote]).cons quote
  unfold unquote
  split
  · rename_i inner hb
    exact hbetween _ _ hb
  · cases hb : between? '\'' s with
    | none => exact List.Sublist.refl s
    | some inner => exact hbetween _ _ hb

/-! ## Whole headers -/

/-- A key has the value of its entries when there are entries of it and all have the same value. -/
theorem value?_of_unique {key : String} {header : List (List Char)} {value : List Char}
    (he : ∃ line ∈ header, isEntryOf key line = true)
    (hv : ∀ line ∈ header, isEntryOf key line = true → valueOf line = value) : value? key header = some value := by
  cases hf : header.find? (isEntryOf key) with
  | none =>
    obtain ⟨line, hm, hk⟩ := he
    exact absurd hk (List.find?_eq_none.1 hf line hm)
  | some line =>
    rw [value?, hf, Option.map_some, hv line (List.mem_of_find?_eq_some hf) (List.find?_some hf)]

/-- The tools of a header in which the tool list and its items stand in one place, before a top-level line or at the end. -/
theorem toolsOf_split {above items below : List (List Char)} {line : List Char}
    (ha : ∀ l ∈ above, isEntryOf toolsKey l = false) (hl : isEntryOf toolsKey line = true)
    (hi : ∀ l ∈ items, isTopLevel l = false) (hb : ∀ l ∈ below.head?, isTopLevel l = true) :
    toolsOf (above ++ (line :: (items ++ below))) = some (splitToolList (String.ofList (valueOf line)) ++
      if valueOf line = [] then items.flatMap toolsOfItem else []) := by
  have hv : value? toolsKey (above ++ (line :: (items ++ below))) = some (valueOf line) := by
    have hn : above.find? (isEntryOf toolsKey) = none := List.find?_eq_none.2 fun l hm => by simp [ha l hm]
    rw [value?, List.find?_append, hn, Option.none_or, List.find?_cons_of_pos hl, Option.map_some]
  have hw : linesBelow toolsKey (above ++ (line :: (items ++ below))) = items ++ below := by
    have hp : ∀ l ∈ above, (!isEntryOf toolsKey l) = true := fun l hm => by rw [ha l hm]; rfl
    rw [linesBelow, List.dropWhile_append_of_pos hp, List.dropWhile_cons_of_neg (by rw [hl]; decide)]
    rfl
  have hi' : ∀ l ∈ items, (!isTopLevel l) = true := fun l hm => by rw [hi l hm]; rfl
  have ht : (items ++ below).takeWhile (fun l => !isTopLevel l) = items := by
    rw [List.takeWhile_append_of_pos hi']
    cases below with
    | nil => rw [List.takeWhile_nil, List.append_nil]
    | cons l below => rw [List.takeWhile_cons_of_neg (by rw [hb l rfl]; decide), List.append_nil]
  rw [toolsOf, hv, Option.map_some, itemTools, hw, ht]

theorem keysOf_append_header (above below : List (List Char)) : keysOf (above ++ below) = keysOf above ++ keysOf below := by
  rw [keysOf, List.filter_append, List.filterMap_append, keysOf, keysOf]

/-- A header draws no finding on its lines when every top-level line has a known key and no key comes twice. -/
theorem lineFindings_eq_nil {header : List (List Char)} (number : Nat)
    (hk : ∀ line ∈ header, isTopLevel line = true → ∃ key ∈ knownKeys, keyOf? line = some key)
    (hn : (keysOf header).Nodup) : lineFindings number header = [] := by
  rw [lineFindings, List.filterMap_eq_nil_iff]
  intro found hf
  obtain ⟨i, hi, rfl⟩ := List.mem_mapIdx.1 hf
  cases ht : isTopLevel header[i] with
  | false => simp [lineFinding?, ht]
  | true =>
    obtain ⟨key, hkey, hl⟩ := hk _ (List.getElem_mem hi) ht
    -- the key is among those from the line on, so it is not among those above the line
    have hsplit : header = header.take i ++ header[i] :: header.drop (i + 1) := by
      rw [List.getElem_cons_drop, List.take_append_drop]
    have hmem : key ∈ keysOf (header[i] :: header.drop (i + 1)) :=
      List.mem_filterMap.2 ⟨_, List.mem_filter.2 ⟨List.mem_cons_self, ht⟩, hl⟩
    rw [hsplit, keysOf_append_header, List.nodup_append] at hn
    have habove : key ∉ keysOf (header.take i) := fun hm => hn.2.2 key hm key hmem rfl
    simp [lineFinding?, ht, hl, habove, hkey]

/-! ## Whole documents -/

/-- The line that delimits a header. -/
def delimiterLine : List Char := ['-', '-', '-']

/-- The text of a document that starts with its header. -/
def documentText (header : List (List Char)) (body : List Char) : String :=
  String.ofList (Text.endLines (delimiterLine :: (header ++ [delimiterLine])) ++ body)

/-- A document is read back from the lines of its header and the text of its body. -/
theorem ofText?_documentText {header : List (List Char)} (h : ∀ l ∈ header, Text.IsLine l)
    (hd : ∀ l ∈ header, Document.isDelimiter l = false) (body : List Char) :
    Document.ofText? (documentText header body) = some ⟨[], header, Text.lines body⟩ := by
  have hline : Text.IsLine delimiterLine := ⟨by decide, by decide⟩
  have hall : ∀ l ∈ delimiterLine :: (header ++ [delimiterLine]), Text.IsLine l := by
    intro l hl
    simp only [List.mem_cons, List.mem_append, List.not_mem_nil, or_false] at hl
    rcases hl with rfl | hl | rfl
    · exact hline
    · exact h l hl
    · exact hline
  rw [Document.ofText?_eq_some_iff, documentText, String.toList_ofList, Text.lines_endLines_append hall]
  exact ⟨delimiterLine, delimiterLine, by simp, by decide, by decide, by simpa using hd⟩

/-- Whatever stands between the delimiters and behind them, there is a document. -/
theorem exists_ofText?_documentText (header : List (List Char)) (body : List Char) :
    ∃ d, Document.ofText? (documentText header body) = some d := by
  have hline : Text.IsLine delimiterLine := ⟨by decide, by decide⟩
  have hfirst : (documentText header body).toList =
      delimiterLine ++ '\n' :: (Text.endLines header ++ (delimiterLine ++ '\n' :: body)) := by
    simp [documentText, Text.endLines]
  have hsecond : delimiterLine ∈ Text.lines (delimiterLine ++ '\n' :: body) := by
    rw [Text.lines_append_newline hline]
    exact List.mem_cons_self
  have hmore : 0 < (Text.lines (Text.endLines header ++ (delimiterLine ++ '\n' :: body))).countP Document.isDelimiter :=
    List.countP_pos_iff.2 ⟨_, Text.mem_lines_endLines_append hsecond header, by decide⟩
  refine Document.exists_of_two_delimiters ?_
  rw [hfirst, Text.lines_append_newline hline, List.countP_cons_of_pos (by decide)]
  omega

end SkillLint.Header
