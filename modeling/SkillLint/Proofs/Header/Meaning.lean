import SkillLint.Header
import SkillLint.Proofs.Text.Trim

/-!
# What a header means

The meaning of a header without a reader's state. A line is top-level when it is not blank, neither a comment nor an item and
not indented; a field has the value of the first top-level line with its key; the items of an empty tool list are those up to
the next top-level line; and each top-level line draws at most one finding, which depends on the lines above it only through
their keys. Beside each definition stands what one more line at the end does to it: these are the equations that a reader
going from line to line has to keep.
-/

namespace SkillLint.Header

/-- The key of the tool list. -/
def toolsKey : String := "allowed-tools"

/-- Whether a line is top-level: it is not blank, it is neither a comment nor an item of a list, and it is not indented. -/
def isTopLevel (line : List Char) : Bool :=
  !(Text.trim line).isEmpty && (Text.trim line).head? != some '#' && (Text.trim line).head? != some '-'
    && !line.head?.any Text.isBlank

/-- The text before the first colon of a line, without blanks around it, if the line has a colon. -/
def keyOf? (line : List Char) : Option String :=
  if ':' ∈ line then some (String.ofList (Text.trim (line.takeWhile (· != ':')))) else none

/-- The text behind the first colon of a line, without blanks around it. -/
def valueOf (line : List Char) : List Char :=
  Text.trim ((line.dropWhile (· != ':')).drop 1)

/-- The text behind the hyphen that a line starts with, blanks aside, if it starts with one. -/
def itemOf? (line : List Char) : Option (List Char) :=
  if (Text.trim line).head? = some '-' then some ((Text.trim line).drop 1) else none

/-- Whether a line is a top-level line with the given key. -/
def isEntryOf (key : String) (line : List Char) : Bool :=
  isTopLevel line && keyOf? line == some key

/-- The value that a header gives to a key: that of the first top-level line with the key. -/
def value? (key : String) (header : List (List Char)) : Option (List Char) :=
  (header.find? (isEntryOf key)).map valueOf

/-- The lines below the first top-level line with a key. -/
def linesBelow (key : String) (header : List (List Char)) : List (List Char) :=
  (header.dropWhile fun line => !isEntryOf key line).drop 1

/-- The tools that a line names if it is an item. -/
def toolsOfItem (line : List Char) : List String :=
  (itemOf? line).toList.flatMap fun item => splitToolList (String.ofList item)

/-- The tools that the items below an empty tool list name: those up to the next top-level line. -/
def itemTools (header : List (List Char)) : List String :=
  ((linesBelow toolsKey header).takeWhile fun line => !isTopLevel line).flatMap toolsOfItem

/-- The tools that a header lists: those of the value, and those of the items when the value is empty. -/
def toolsOf (header : List (List Char)) : Option (List String) :=
  (value? toolsKey header).map fun value =>
    splitToolList (String.ofList value) ++ if value = [] then itemTools header else []

/-- The fields that a header gives. -/
def fieldsOf (header : List (List Char)) : HeaderFields where
  name := (value? "name" header).map fun value => String.ofList (unquote value)
  description := (value? "description" header).map fun value => String.ofList (unquote value)
  allowedTools := toolsOf header

/-- The keys of the top-level lines, in order and as often as they occur. -/
def keysOf (header : List (List Char)) : List String :=
  (header.filter isTopLevel).filterMap keyOf?

/-- The finding about a line, given its number in the document and the header lines above it. -/
def lineFinding? (above : List (List Char)) (number : Nat) (line : List Char) : Option Finding :=
  if isTopLevel line then
    match keyOf? line with
    | none => some (malformedLine number (String.ofList (Text.trim line)))
    | some key =>
      if key ∈ keysOf above then some (duplicateKey number key)
      else if key ∈ knownKeys then none
      else some (unknownKey number key)
  else none

/-- The findings about the lines of a header, in their order, where the first line has the given number in its document. -/
def lineFindings (number : Nat) (header : List (List Char)) : List Finding :=
  (header.mapIdx fun i line => lineFinding? (header.take i) (number + i) line).filterMap id

/-- Whether an item below a header would still name a tool: the tool list is empty, and no top-level line has come since. -/
def awaitsItems (header : List (List Char)) : Bool :=
  value? toolsKey header == some [] && (linesBelow toolsKey header).all fun line => !isTopLevel line

/-! ## What a single line says -/

/-- A text is split at its first colon. -/
theorem splitAtColon?_append {key : List Char} (h : ':' ∉ key) (value : List Char) :
    splitAtColon? (key ++ ':' :: value) = some (key, value) := by
  induction key with
  | nil => simp [splitAtColon?]
  | cons c key ih =>
    have hc : c ≠ ':' := fun e => h (e ▸ List.mem_cons_self)
    rw [List.cons_append, splitAtColon?, if_neg hc, ih fun e => h (List.mem_cons_of_mem _ e)]
    rfl

/-- A text without a colon is not split. -/
theorem splitAtColon?_of_not_mem {s : List Char} (h : ':' ∉ s) : splitAtColon? s = none := by
  induction s with
  | nil => rfl
  | cons c s ih =>
    have hc : c ≠ ':' := fun e => h (e ▸ List.mem_cons_self)
    rw [splitAtColon?, if_neg hc, ih fun e => h (List.mem_cons_of_mem _ e)]
    rfl

/-- The key of a line stands before the first colon. -/
theorem keyOf?_append {key : List Char} (h : ':' ∉ key) (value : List Char) :
    keyOf? (key ++ ':' :: value) = some (String.ofList (Text.trim key)) := by
  have ht : (key ++ ':' :: value).takeWhile (· != ':') = key :=
    Text.takeWhile_append_cons (Text.forall_ne_of_not_mem h) (by simp)
  rw [keyOf?, if_pos (by simp), ht]

theorem valueOf_append {key : List Char} (h : ':' ∉ key) (value : List Char) :
    valueOf (key ++ ':' :: value) = Text.trim value := by
  rw [valueOf, Text.dropWhile_append_cons (Text.forall_ne_of_not_mem h) (by simp)]
  rfl

/-- The first character of a top-level line is not blank. -/
theorem head_not_blank_of_isTopLevel {line : List Char} (h : isTopLevel line = true) :
    ∀ c ∈ line.head?, Text.isBlank c = false := by
  intro c hc
  simp only [isTopLevel, Bool.and_eq_true, Option.mem_def.1 hc] at h
  simpa using h.2

/-- A line that is neither blank, a comment nor an item is judged by its first character and its colon. -/
theorem ofText_of_isTopLevel {line : List Char} (h : isTopLevel line = true) :
    Line.ofText line = Line.ofEntry (Text.trim line) := by
  simp only [isTopLevel, Bool.and_eq_true, bne_iff_ne, Bool.not_eq_true', List.isEmpty_eq_false_iff] at h
  obtain ⟨⟨⟨hne, hc⟩, hi⟩, hb⟩ := h
  unfold Line.ofText
  split
  · rename_i e
    exact absurd e hne
  · rename_i e
    exact absurd (by rw [e]; rfl) hc
  · rename_i e
    exact absurd (by rw [e]; rfl) hi
  · rw [hb]
    rfl

/-- A top-level line with a colon is an entry: blanks behind the line do not show in its value. -/
theorem ofText_eq_entry {line : List Char} (h : isTopLevel line = true) (hc : ':' ∈ line) :
    ∃ key, keyOf? line = some (String.ofList key) ∧ Line.ofText line = .entry key (valueOf line) := by
  obtain ⟨post, hl, hp⟩ := Text.exists_trim_append_blanks (head_not_blank_of_isTopLevel h)
  obtain ⟨key, value, ht, hk⟩ := List.eq_append_cons_of_mem ((Text.mem_trim_iff rfl line).2 hc)
  have he : line = key ++ ':' :: (value ++ post) := by
    rw [ht, List.append_assoc, List.cons_append] at hl
    exact hl
  refine ⟨Text.trim key, by rw [he, keyOf?_append hk], ?_⟩
  have hv : valueOf line = Text.trim value := by rw [he, valueOf_append hk, Text.trim_append_blanks _ hp]
  rw [ofText_of_isTopLevel h, Line.ofEntry, ht, splitAtColon?_append hk, hv]

/-- A top-level line without a colon is malformed. -/
theorem ofText_eq_malformed {line : List Char} (h : isTopLevel line = true) (hc : ':' ∉ line) :
    Line.ofText line = .malformed (Text.trim line) := by
  have hn : ':' ∉ Text.trim line := mt (Text.mem_trim_iff rfl line).1 hc
  rw [ofText_of_isTopLevel h, Line.ofEntry, splitAtColon?_of_not_mem hn]

/-- A line that is not top-level is an item, or it says nothing. -/
theorem ofText_of_not_isTopLevel {line : List Char} (h : isTopLevel line = false) :
    (∃ item, itemOf? line = some item ∧ Line.ofText line = .item item) ∨
      (itemOf? line = none ∧ (Line.ofText line = .filler ∨ Line.ofText line = .continuation)) := by
  unfold Line.ofText
  split
  · rename_i e
    exact .inr ⟨by simp [itemOf?, e], .inl rfl⟩
  · rename_i e
    exact .inr ⟨by simp [itemOf?, e], .inl rfl⟩
  · rename_i rest e
    exact .inl ⟨rest, by simp [itemOf?, e], rfl⟩
  · rename_i hne hc hi
    have hh : (Text.trim line).head? ≠ some '-' := fun e => by
      obtain ⟨rest, hr⟩ := List.head?_eq_some_iff.1 e
      exact hi rest hr
    have hh' : (Text.trim line).head? ≠ some '#' := fun e => by
      obtain ⟨rest, hr⟩ := List.head?_eq_some_iff.1 e
      exact hc rest hr
    have hb : line.head?.any Text.isBlank = true := by
      have hne' : (Text.trim line).isEmpty = false := by
        cases ht : Text.trim line with
        | nil => exact absurd ht hne
        | cons => rfl
      simpa [isTopLevel, hne', bne_iff_ne.2 hh, bne_iff_ne.2 hh'] using h
    rw [hb]
    exact .inr ⟨if_neg hh, .inr rfl⟩

/-! ## What one more line changes -/

theorem value?_eq_none_iff {key : String} {header : List (List Char)} : value? key header = none ↔ key ∉ keysOf header := by
  simp only [value?, Option.map_eq_none_iff, List.find?_eq_none, keysOf, List.mem_filterMap, List.mem_filter, isEntryOf,
    Bool.and_eq_true, beq_iff_eq, not_and, not_exists]
  exact ⟨fun h line hm hk => h line hm.1 hm.2 hk, fun h line hm ht hk => h line ⟨hm, ht⟩ hk⟩

/-- One more line gives a value only to a key that has none. -/
theorem value?_append (key : String) (above : List (List Char)) (line : List Char) :
    value? key (above ++ [line]) =
      (value? key above).or (if isEntryOf key line = true then some (valueOf line) else none) := by
  rw [value?, List.find?_append, value?]
  cases above.find? (isEntryOf key) with
  | some first => rfl
  | none => cases h : isEntryOf key line <;> simp [h]

/-- One more line adds its key if it is a top-level line and has one. -/
theorem keysOf_append (above : List (List Char)) (line : List Char) :
    keysOf (above ++ [line]) = keysOf above ++ if isTopLevel line = true then (keyOf? line).toList else [] := by
  rw [keysOf, List.filter_append, List.filterMap_append, keysOf]
  cases h : isTopLevel line with
  | false => simp [h]
  | true => cases hk : keyOf? line <;> simp [h, hk]

/-- One more line lies below the first line with a key if there is one. -/
theorem linesBelow_append {key : String} {above : List (List Char)} {value : List Char} (h : value? key above = some value)
    (line : List Char) : linesBelow key (above ++ [line]) = linesBelow key above ++ [line] := by
  obtain ⟨first, hf, -⟩ := Option.map_eq_some_iff.1 h
  cases hd : above.dropWhile fun l => !isEntryOf key l with
  | nil =>
    have hall : above.takeWhile (fun l => !isEntryOf key l) ++ above.dropWhile (fun l => !isEntryOf key l) = above :=
      List.takeWhile_append_dropWhile
    rw [hd, List.append_nil] at hall
    have := List.all_eq_true.1 (hall ▸ List.all_takeWhile) first (List.mem_of_find?_eq_some hf)
    simp [List.find?_some hf] at this
  | cons first rest => simp [linesBelow, List.dropWhile_append, hd]

/-- Nothing lies below the first line with a key when that line is the last one. -/
theorem linesBelow_append_of_none {key : String} {above : List (List Char)} (h : value? key above = none)
    (line : List Char) : linesBelow key (above ++ [line]) = [] := by
  have hn : ∀ l ∈ above, (!isEntryOf key l) = true := by
    simpa [value?, List.find?_eq_none] using h
  rw [linesBelow, List.dropWhile_append_of_pos hn]
  cases he : isEntryOf key line <;> simp [he]

/-- A finding about a line says that the line has no key, that a line above it has the same one, or that its key is not known. -/
theorem cases_of_lineFinding? {above : List (List Char)} {number : Nat} {line : List Char} {f : Finding}
    (h : lineFinding? above number line = some f) :
    keyOf? line = none ∧ f = malformedLine number (String.ofList (Text.trim line)) ∨
      ∃ key, keyOf? line = some key ∧
        (key ∈ keysOf above ∧ f = duplicateKey number key ∨ key ∉ knownKeys ∧ f = unknownKey number key) := by
  unfold lineFinding? at h
  split at h
  · split at h
    · rename_i hk
      exact .inl ⟨hk, (Option.some.inj h).symm⟩
    · rename_i key hk
      refine .inr ⟨key, hk, ?_⟩
      split at h
      · rename_i hs
        exact .inl ⟨hs, (Option.some.inj h).symm⟩
      · split at h
        · exact absurd h (by simp)
        · rename_i hs
          exact .inr ⟨hs, (Option.some.inj h).symm⟩
  · exact absurd h (by simp)

/-- One more line draws its finding behind those of the lines above it. -/
theorem lineFindings_append (number : Nat) (above : List (List Char)) (line : List Char) :
    lineFindings number (above ++ [line]) =
      lineFindings number above ++ (lineFinding? above (number + above.length) line).toList := by
  have hm : (above.mapIdx fun i l => lineFinding? ((above ++ [line]).take i) (number + i) l) =
      above.mapIdx fun i l => lineFinding? (above.take i) (number + i) l := by
    rw [List.mapIdx_eq_mapIdx_iff]
    intro i hi
    rw [List.take_append_of_le_length (Nat.le_of_lt hi)]
  have hl : (above ++ [line]).take above.length = above := List.take_left
  rw [lineFindings, List.mapIdx_concat, hm, hl, List.filterMap_append, lineFindings]
  cases lineFinding? above (number + above.length) line <;> rfl

/-- A finding about the lines of a header is about one of them, and was made with the lines above it. -/
theorem exists_line_of_mem_lineFindings {number : Nat} {header : List (List Char)} {f : Finding}
    (h : f ∈ lineFindings number header) :
    ∃ above line below, header = above ++ line :: below ∧ lineFinding? above (number + above.length) line = some f := by
  obtain ⟨found, hm, rfl⟩ := List.mem_filterMap.1 h
  obtain ⟨i, hi, he⟩ := List.mem_mapIdx.1 hm
  refine ⟨header.take i, header[i], header.drop (i + 1), ?_, ?_⟩
  · rw [← List.drop_eq_getElem_cons hi, List.take_append_drop]
  · rw [List.length_take_of_le (Nat.le_of_lt hi)]
    exact he

/-! ### The tools -/

/-- One more element lengthens the front of a list in which all satisfy a predicate only if that front is the whole list. -/
theorem takeWhile_append_singleton {α : Type} (p : α → Bool) (xs : List α) (x : α) :
    (xs ++ [x]).takeWhile p = xs.takeWhile p ++ if (xs.all p && p x) = true then [x] else [] := by
  induction xs with
  | nil => cases h : p x <;> simp [h]
  | cons y xs ih => cases h : p y <;> simp [h, ih]

/-- One more line names a tool if it is an item and no top-level line has come since the tool list. -/
theorem itemTools_append {above : List (List Char)} {value : List Char} (h : value? toolsKey above = some value)
    (line : List Char) :
    itemTools (above ++ [line]) = itemTools above ++
      if ((linesBelow toolsKey above).all (fun l => !isTopLevel l) && !isTopLevel line) = true then toolsOfItem line
      else [] := by
  rw [itemTools, linesBelow_append h, takeWhile_append_singleton, List.flatMap_append, itemTools]
  split
  · rw [List.flatMap_singleton]
  · rfl

/-- A line that is not top-level adds its item to the tools if items are awaited, and leaves that as it is. -/
theorem toolsOf_append_of_not_isTopLevel {line : List Char} (h : isTopLevel line = false) (above : List (List Char)) :
    toolsOf (above ++ [line]) = (toolsOf above).map (fun tools => tools ++
        if awaitsItems above = true then toolsOfItem line else []) ∧
      awaitsItems (above ++ [line]) = awaitsItems above := by
  have hv : value? toolsKey (above ++ [line]) = value? toolsKey above := by
    simp [value?_append, isEntryOf, h]
  cases hs : value? toolsKey above with
  | none => simp [toolsOf, awaitsItems, hv, hs]
  | some value =>
    have hb := linesBelow_append hs line
    refine ⟨?_, by simp [awaitsItems, hv, hs, hb, h]⟩
    rw [toolsOf, toolsOf, hv, hs, Option.map_some, Option.map_some, Option.map_some, List.append_assoc]
    by_cases hne : value = []
    · have ha : awaitsItems above = (linesBelow toolsKey above).all fun l => !isTopLevel l := by
        rw [awaitsItems, hs, hne]
        rfl
      rw [if_pos hne, if_pos hne, itemTools_append hs, ha, h, Bool.not_false, Bool.and_true]
    · have ha : awaitsItems above = false := by
        simp [awaitsItems, hs, hne]
      simp [hne, ha]

/-- A top-level line that does not give the tool list its value leaves the tools as they are, and ends the items. -/
theorem toolsOf_append_of_isTopLevel {line : List Char} (h : isTopLevel line = true) {above : List (List Char)}
    (hk : value? toolsKey above = none → isEntryOf toolsKey line = false) :
    toolsOf (above ++ [line]) = toolsOf above ∧ awaitsItems (above ++ [line]) = false := by
  cases hs : value? toolsKey above with
  | none =>
    have hv : value? toolsKey (above ++ [line]) = none := by
      simp [value?_append, hs, hk hs]
    simp [toolsOf, awaitsItems, hv, hs]
  | some value =>
    have hv : value? toolsKey (above ++ [line]) = some value := by
      simp [value?_append, hs]
    have ht : itemTools (above ++ [line]) = itemTools above := by
      simp [itemTools_append hs, h]
    exact ⟨by rw [toolsOf, toolsOf, hv, hs, ht], by simp [awaitsItems, linesBelow_append hs, h]⟩

/-- The line that gives the tool list its value awaits items exactly when the value is empty. -/
theorem toolsOf_append_of_isEntryOf {line : List Char} (h : isEntryOf toolsKey line = true) {above : List (List Char)}
    (hn : value? toolsKey above = none) :
    toolsOf (above ++ [line]) = some (splitToolList (String.ofList (valueOf line))) ∧
      awaitsItems (above ++ [line]) = (valueOf line).isEmpty := by
  have hv : value? toolsKey (above ++ [line]) = some (valueOf line) := by
    simp [value?_append, hn, h]
  have hb := linesBelow_append_of_none hn line
  constructor
  · simp [toolsOf, hv, itemTools, hb]
  · cases hl : valueOf line <;> simp [awaitsItems, hv, hb, hl]

end SkillLint.Header
