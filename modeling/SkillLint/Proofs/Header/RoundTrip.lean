import SkillLint.Proofs.Header.Reading
import SkillLint.Proofs.Header.ToolTokens
import SkillLint.Proofs.Header.Written

/-!
# Reading back a written header

A header with a quoted name, a quoted description and a list of tools in any of its three spellings, the entries in any order,
is read back: the fields are those that were written, whatever the texts hold besides line feeds, and nothing is found fault
with. The body is read back too, further delimiter lines in it included.
-/

namespace SkillLint

namespace Header

/-- The ways to write a list of tools. -/
inductive Spelling where
  /-- The tools with commas between them. -/
  | inline
  /-- The same in square brackets. -/
  | flow
  /-- A line for each tool, with the given blanks before its hyphen. -/
  | block (indent : List Char)

namespace Spelling

/-- Whether a block of items is indented by blanks of one line, if at all; the other spellings have no items. -/
def IsIndented : Spelling → Prop
  | .block indent => (∀ c ∈ indent, Text.isBlank c = true) ∧ '\n' ∉ indent
  | _ => True

/-- The lines of a list of tools. -/
def lines (tools : List String) : Spelling → List (List Char)
  | .inline => [entryLine toolsKey (joinTokens (tools.map String.toList))]
  | .flow => [entryLine toolsKey ('[' :: (joinTokens (tools.map String.toList) ++ [']']))]
  | .block indent => (toolsKey.toList ++ [':']) :: tools.map fun tool => itemLine indent tool.toList

end Spelling

/-- The line of a value in double quotes. -/
def quotedLine (key value : String) : List Char :=
  entryLine key ('"' :: (value.toList ++ ['"']))

/-! ## The entries -/

/-- A value in double quotes is a line when it has no line feed in it. -/
theorem isLine_quotedLine {key : String} (h : key ∈ knownKeys) {value : String} (hv : '\n' ∉ value.toList) :
    Text.IsLine (quotedLine key value) := by
  refine isLine_entryLine h ⟨by simpa using hv, ?_⟩
  rw [List.getLast?_cons_of_ne_nil (by simp), List.getLast?_concat]
  decide

theorem unquote_valueOf_quotedLine {key : String} (h : key ∈ knownKeys) (value : String) :
    unquote (valueOf (quotedLine key value)) = value.toList := by
  rw [quotedLine, valueOf_entryLine h, Text.trim_enclosed (by decide) (by decide), unquote_double]

/-- The lines of a list of tools, as a reader sees them: an entry of the tool list, items that belong to it, and between them
the tools. -/
structure IsToolList (tools : List String) (line : List Char) (items : List (List Char)) : Prop where
  entry : ∃ rest, line = toolsKey.toList ++ ':' :: rest
  items_below : ∀ l ∈ items, isTopLevel l = false
  tools_eq : splitToolList (String.ofList (valueOf line)) ++
    (if valueOf line = [] then items.flatMap toolsOfItem else []) = tools
  lines_ok : ∀ l ∈ line :: items, Text.IsLine l
  no_delimiter : ∀ l ∈ line :: items, Document.isDelimiter l = false

theorem toolsKey_mem : toolsKey ∈ knownKeys := by decide

theorem getLast?_ne_return {s : List Char} (h : ∀ c ∈ s.getLast?, Text.isBlank c = false) : s.getLast? ≠ some '\r' :=
  fun e => absurd (h '\r' e) (by decide)

theorem newline_not_mem_joinTokens {ts : List (List Char)} (h : ∀ t ∈ ts, '\n' ∉ t) : '\n' ∉ joinTokens ts := by
  intro hm
  rcases Text.mem_intercalate hm with hm | ⟨t, ht, hm⟩
  · exact absurd hm (by decide)
  · exact h t ht hm

section Tools

variable {tools : List String} (h : ∀ tool ∈ tools, IsToolToken tool.toList)

include h in
theorem isToolToken_toList : ∀ t ∈ tools.map String.toList, IsToolToken t := by
  intro t ht
  obtain ⟨tool, hm, rfl⟩ := List.mem_map.1 ht
  exact h tool hm

theorem map_ofList_toList (tools : List String) : (tools.map String.toList).map String.ofList = tools := by
  induction tools with
  | nil => rfl
  | cons tool tools ih => rw [List.map_cons, List.map_cons, ih, String.ofList_toList]

/-- A list of tools on one line is one when its value is read as the tools. -/
theorem isToolList_entryLine {value : List Char} (hl : Text.IsLine value)
    (ht : toolEntries (Text.trim value) = tools.map String.toList) :
    IsToolList tools (entryLine toolsKey value) [] where
  entry := ⟨' ' :: value, rfl⟩
  items_below := by simp
  tools_eq := by
    rw [valueOf_entryLine toolsKey_mem, splitToolList, String.toList_ofList, ht, map_ofList_toList]
    simp
  lines_ok := by
    intro l hm
    rw [List.mem_singleton.1 hm]
    exact isLine_entryLine toolsKey_mem hl
  no_delimiter := by
    intro l hm
    rw [List.mem_singleton.1 hm]
    exact isDelimiter_of_isTopLevel (isTopLevel_of_knownKey toolsKey_mem _)

include h in
/-- The items of a block name the tools. -/
theorem flatMap_toolsOfItem {indent : List Char} (hb : ∀ c ∈ indent, Text.isBlank c = true) :
    (tools.map fun tool => itemLine indent tool.toList).flatMap toolsOfItem = tools := by
  induction tools with
  | nil => rfl
  | cons tool tools ih =>
    have ht : IsToolToken tool.toList := h tool List.mem_cons_self
    have hone : toolsOfItem (itemLine indent tool.toList) = [tool] := by
      rw [toolsOfItem, itemOf?_itemLine hb ht.getLast_not_blank ht.not_empty, Option.toList_some, List.flatMap_singleton,
        splitToolList, String.toList_ofList, toolEntries_space ht, List.map_singleton, String.ofList_toList]
    rw [List.map_cons, List.flatMap_cons, hone, ih fun u hu => h u (List.mem_cons_of_mem _ hu)]
    rfl

include h in
/-- A block of items is a list of tools. -/
theorem isToolList_block {indent : List Char} (hb : ∀ c ∈ indent, Text.isBlank c = true) (hn : '\n' ∉ indent) :
    IsToolList tools (toolsKey.toList ++ [':']) (tools.map fun tool => itemLine indent tool.toList) := by
  have hv : valueOf (toolsKey.toList ++ [':']) = [] := valueOf_of_knownKey toolsKey_mem []
  refine ⟨⟨[], rfl⟩, fun l hl => ?_, ?_, fun l hl => ?_, fun l hl => ?_⟩
  · obtain ⟨tool, hm, rfl⟩ := List.mem_map.1 hl
    exact isTopLevel_itemLine hb (h tool hm).getLast_not_blank (h tool hm).not_empty
  · rw [hv, if_pos rfl, flatMap_toolsOfItem h hb]
    rfl
  · rcases List.mem_cons.1 hl with rfl | hl
    · exact ⟨by decide, by decide⟩
    · obtain ⟨tool, hm, rfl⟩ := List.mem_map.1 hl
      refine ⟨by simp [itemLine, hn, (h tool hm).one_line], ?_⟩
      rw [itemLine, List.getLast?_append, List.getLast?_cons_cons, List.getLast?_cons_of_ne_nil (h tool hm).not_empty]
      cases hg : tool.toList.getLast? with
      | none => exact absurd (List.getLast?_eq_none_iff.1 hg) (h tool hm).not_empty
      | some c =>
        rw [Option.some_or, ← hg]
        exact getLast?_ne_return (h tool hm).getLast_not_blank
  · rcases List.mem_cons.1 hl with rfl | hl
    · exact isDelimiter_of_isTopLevel (isTopLevel_of_knownKey toolsKey_mem _)
    · obtain ⟨tool, hm, rfl⟩ := List.mem_map.1 hl
      exact isDelimiter_itemLine hb (h tool hm).getLast_not_blank (h tool hm).not_empty

include h in
/-- Every spelling of a list of tools is one. -/
theorem Spelling.isToolList {spelling : Spelling} (hs : spelling.IsIndented) :
    ∃ line items, spelling.lines tools = line :: items ∧ IsToolList tools line items := by
  have ht := isToolToken_toList h
  have hj : '\n' ∉ joinTokens (tools.map String.toList) := newline_not_mem_joinTokens fun t hm => (ht t hm).one_line
  cases spelling with
  | inline =>
    refine ⟨_, _, rfl, isToolList_entryLine ⟨hj, getLast?_ne_return (getLast_joinTokens_not_blank ht)⟩ ?_⟩
    rw [Text.trim_of_ends (head_joinTokens_not_blank ht) (getLast_joinTokens_not_blank ht), toolEntries_joinTokens ht]
  | flow =>
    have hl : ('[' :: (joinTokens (tools.map String.toList) ++ [']'])).getLast? = some ']' := by
      rw [List.getLast?_cons_of_ne_nil (by simp), List.getLast?_concat]
    refine ⟨_, _, rfl, isToolList_entryLine ⟨by simpa using hj, by rw [hl]; decide⟩ ?_⟩
    rw [Text.trim_enclosed (by decide) (by decide), toolEntries_brackets ht]
  | block indent => exact ⟨_, _, rfl, isToolList_block h hs.1 hs.2⟩

end Tools

/-! ## The whole header -/

section Header

variable {name description : String} {tools : List String} {line : List Char} {items : List (List Char)}
  {entries : List (List (List Char))}
  (he : entries.Perm [[quotedLine "name" name], [quotedLine "description" description], line :: items])

include he in
theorem mem_flatten_iff {l : List Char} : l ∈ entries.flatten ↔
    l = quotedLine "name" name ∨ l = quotedLine "description" description ∨ l = line ∨ l ∈ items := by
  rw [he.flatten.mem_iff]
  simp

include he in
/-- The tool list with its items stands in one place of the header, and the lines around it are the two other entries. -/
theorem exists_split : ∃ above below, entries.flatten = above ++ (line :: (items ++ below)) ∧
    ∀ l ∈ above ++ below, l = quotedLine "name" name ∨ l = quotedLine "description" description := by
  obtain ⟨before, after, rfl⟩ := List.append_of_mem (he.mem_iff.2 (by simp : line :: items ∈ _))
  have hrest : (before ++ after).Perm [[quotedLine "name" name], [quotedLine "description" description]] := by
    have hlast : ([[quotedLine "name" name], [quotedLine "description" description]] ++ [line :: items]).Perm
        ([line :: items] ++ [[quotedLine "name" name], [quotedLine "description" description]]) :=
      List.perm_append_comm
    exact (List.perm_middle.symm.trans (he.trans hlast)).cons_inv
  refine ⟨before.flatten, after.flatten, by simp, fun l hm => ?_⟩
  rw [← List.flatten_append, hrest.flatten.mem_iff] at hm
  simpa using hm

theorem isEntryOf_quotedLine {key : String} (h : key ∈ knownKeys) (value k : String) :
    isEntryOf k (quotedLine key value) = true ↔ k = key :=
  isEntryOf_of_knownKey h _ k

/-- The value of a key whose only entry is a quoted line. -/
theorem value?_of_quotedLine {key value : String} (h : key ∈ knownKeys) {header : List (List Char)}
    (hm : quotedLine key value ∈ header) (hu : ∀ l ∈ header, isEntryOf key l = true → l = quotedLine key value) :
    (value? key header).map (fun v => String.ofList (unquote v)) = some value := by
  have hv : value? key header = some (valueOf (quotedLine key value)) :=
    value?_of_unique ⟨_, hm, (isEntryOf_quotedLine h value key).2 rfl⟩ fun l hl hk => by rw [hu l hl hk]
  rw [hv, Option.map_some, unquote_valueOf_quotedLine h, String.ofList_toList]

theorem keysOf_perm {header other : List (List Char)} (h : header.Perm other) : (keysOf header).Perm (keysOf other) :=
  (h.filter _).filterMap _

variable (hl : IsToolList tools line items)

include hl in
theorem isEntryOf_toolLine (k : String) : isEntryOf k line = true ↔ k = toolsKey := by
  obtain ⟨rest, rfl⟩ := hl.entry
  exact isEntryOf_of_knownKey toolsKey_mem rest k

include hl in
theorem isEntryOf_item {l : List Char} (hm : l ∈ items) (k : String) : isEntryOf k l = false := by
  rw [isEntryOf, hl.items_below l hm, Bool.false_and]

include he hl in
/-- What a top-level line of the header is. -/
theorem entry_cases {l : List Char} (hm : l ∈ entries.flatten) {k : String} (hk : isEntryOf k l = true) :
    (k = "name" ∧ l = quotedLine "name" name) ∨ (k = "description" ∧ l = quotedLine "description" description) ∨
      (k = toolsKey ∧ l = line) := by
  rcases (mem_flatten_iff he).1 hm with rfl | rfl | rfl | hi
  · exact .inl ⟨(isEntryOf_quotedLine (by decide) name k).1 hk, rfl⟩
  · exact .inr (.inl ⟨(isEntryOf_quotedLine (by decide) description k).1 hk, rfl⟩)
  · exact .inr (.inr ⟨(isEntryOf_toolLine hl k).1 hk, rfl⟩)
  · exact absurd hk (by rw [isEntryOf_item hl hi]; exact Bool.false_ne_true)

include he hl in
/-- The fields are the ones that were written. -/
theorem fieldsOf_flatten : fieldsOf entries.flatten = ⟨some name, some description, some tools⟩ := by
  have hname : (value? "name" entries.flatten).map (fun v => String.ofList (unquote v)) = some name := by
    refine value?_of_quotedLine (by decide) ((mem_flatten_iff he).2 (.inl rfl)) fun l hm hk => ?_
    rcases entry_cases he hl hm hk with ⟨-, rfl⟩ | ⟨h, -⟩ | ⟨h, -⟩
    · rfl
    · exact absurd h (by decide)
    · exact absurd h (by decide)
  have hdescription : (value? "description" entries.flatten).map (fun v => String.ofList (unquote v)) = some description := by
    refine value?_of_quotedLine (by decide) ((mem_flatten_iff he).2 (.inr (.inl rfl))) fun l hm hk => ?_
    rcases entry_cases he hl hm hk with ⟨h, -⟩ | ⟨-, rfl⟩ | ⟨h, -⟩
    · exact absurd h (by decide)
    · rfl
    · exact absurd h (by decide)
  have htools : toolsOf entries.flatten = some tools := by
    obtain ⟨above, below, hs, hrest⟩ := exists_split he
    have habove : ∀ l ∈ above, isEntryOf toolsKey l = false := fun l hm => by
      rw [Bool.eq_false_iff]
      intro hk
      rcases hrest l (List.mem_append_left _ hm) with rfl | rfl
      · exact absurd ((isEntryOf_quotedLine (by decide) _ _).1 hk) (by decide)
      · exact absurd ((isEntryOf_quotedLine (by decide) _ _).1 hk) (by decide)
    have hbelow : ∀ l ∈ below.head?, isTopLevel l = true := fun l hm => by
      rcases hrest l (List.mem_append_right _ (List.mem_of_mem_head? hm)) with rfl | rfl
      · exact isTopLevel_of_knownKey (by decide) _
      · exact isTopLevel_of_knownKey (by decide) _
    rw [hs, toolsOf_split habove ((isEntryOf_toolLine hl _).2 rfl) hl.items_below hbelow, hl.tools_eq]
  rw [fieldsOf, hname, hdescription, htools]

include he hl in
/-- The header draws no finding. -/
theorem lineFindings_flatten (number : Nat) : lineFindings number entries.flatten = [] := by
  obtain ⟨rest, hline⟩ := hl.entry
  refine lineFindings_eq_nil number (fun l hm ht => ?_) ?_
  · rcases (mem_flatten_iff he).1 hm with rfl | rfl | rfl | hi
    · exact ⟨"name", by decide, keyOf?_of_knownKey (by decide) _⟩
    · exact ⟨"description", by decide, keyOf?_of_knownKey (by decide) _⟩
    · exact ⟨toolsKey, toolsKey_mem, hline ▸ keyOf?_of_knownKey toolsKey_mem _⟩
    · exact absurd ht (by rw [hl.items_below l hi]; exact Bool.false_ne_true)
  · have hitems : items.filter isTopLevel = [] :=
      List.filter_eq_nil_iff.2 fun l hm => by simp [hl.items_below l hm]
    have hkeys : keysOf [quotedLine "name" name, quotedLine "description" description, line] =
        ["name", "description", toolsKey] := by
      have hn : isTopLevel (quotedLine "name" name) = true := isTopLevel_of_knownKey (by decide) _
      have hd : isTopLevel (quotedLine "description" description) = true := isTopLevel_of_knownKey (by decide) _
      have ht : isTopLevel line = true := hline ▸ isTopLevel_of_knownKey toolsKey_mem _
      have hkn : keyOf? (quotedLine "name" name) = some "name" := keyOf?_of_knownKey (by decide) _
      have hkd : keyOf? (quotedLine "description" description) = some "description" := keyOf?_of_knownKey (by decide) _
      have hkt : keyOf? line = some toolsKey := hline ▸ keyOf?_of_knownKey toolsKey_mem _
      simp [keysOf, hn, hd, ht, hkn, hkd, hkt]
    have hall : keysOf entries.flatten |>.Perm ["name", "description", toolsKey] := by
      refine (keysOf_perm he.flatten).trans (.of_eq ?_)
      have hsplit : [[quotedLine "name" name], [quotedLine "description" description], line :: items].flatten =
          [quotedLine "name" name, quotedLine "description" description, line] ++ items := by simp
      rw [hsplit, keysOf_append_header, hkeys, keysOf, hitems]
      rfl
    exact hall.nodup_iff.2 (by decide)

include he hl in
/-- Nothing in the header would be taken for the end of it, or for more lines than were written. -/
theorem lines_flatten (hn : '\n' ∉ name.toList) (hd : '\n' ∉ description.toList) :
    ∀ l ∈ entries.flatten, Text.IsLine l ∧ Document.isDelimiter l = false := by
  intro l hm
  rcases (mem_flatten_iff he).1 hm with rfl | rfl | rfl | hi
  · exact ⟨isLine_quotedLine (by decide) hn, isDelimiter_of_isTopLevel (isTopLevel_of_knownKey (by decide) _)⟩
  · exact ⟨isLine_quotedLine (by decide) hd, isDelimiter_of_isTopLevel (isTopLevel_of_knownKey (by decide) _)⟩
  · exact ⟨hl.lines_ok _ List.mem_cons_self, hl.no_delimiter _ List.mem_cons_self⟩
  · exact ⟨hl.lines_ok l (List.mem_cons_of_mem _ hi), hl.no_delimiter l (List.mem_cons_of_mem _ hi)⟩

end Header

end Header

/-- A document with a quoted name, a quoted description and a list of tools, in any order and in any spelling of the list, is
read back as it was written: the name, the description, the tools and the body are the ones that were put into it, the body
starts on the line below the closing delimiter, and there is no finding. -/
theorem Extraction.ofText?_written {name description body : String} {tools : List String} {spelling : Header.Spelling}
    {entries : List (List (List Char))} (hn : '\n' ∉ name.toList) (hd : '\n' ∉ description.toList)
    (ht : ∀ tool ∈ tools, Header.IsToolToken tool.toList) (hs : spelling.IsIndented) (hr : '\r' ∉ body.toList)
    (hb : body.toList.getLast? ≠ some '\n')
    (he : entries.Perm [[Header.quotedLine "name" name], [Header.quotedLine "description" description],
      spelling.lines tools]) :
    ofText? (Header.documentText entries.flatten body.toList) = some
      { fields := ⟨some name, some description, some tools⟩
        raw := String.ofList (Text.joinLines entries.flatten)
        bodyStart := (Header.delimiterLine :: (entries.flatten ++ [Header.delimiterLine])).length + 1
        body := body
        findings := [] } := by
  obtain ⟨line, items, hlines, hl⟩ := Header.Spelling.isToolList ht hs
  rw [hlines] at he
  have hok := Header.lines_flatten he hl hn hd
  have hdoc := Header.ofText?_documentText (fun l hm => (hok l hm).1) (fun l hm => (hok l hm).2) body.toList
  have hfields := Header.fieldsOf_flatten he hl
  rw [ofText?, hdoc, Option.map_some, ofDocument_eq_meaning, Document.meaning]
  simp only [Document.bodyText, Document.headerText, Document.bodyStart, hfields, Header.lineFindings_flatten he hl]
  rw [Text.joinLines_lines hr hb, String.ofList_toList]
  simp [Header.missingFields]

/-- A block of tools before the other entries, a colon and quotes in their values, and a delimiter line in the body. -/
theorem Extraction.ofText?_written_block :
    let entries := [Header.Spelling.lines ["Read", "Bash(git add:*, git log)"] (.block [' ', '\t']),
      [Header.quotedLine "description" "Says \"use when\": now # and then"], [Header.quotedLine "name" "pdf-forms"]]
    ofText? (Header.documentText entries.flatten "# Forms\n---\nname: none".toList) = some
      { fields := ⟨some "pdf-forms", some "Says \"use when\": now # and then", some ["Read", "Bash(git add:*, git log)"]⟩
        raw := String.ofList (Text.joinLines entries.flatten)
        bodyStart := 8
        body := "# Forms\n---\nname: none"
        findings := [] } := by
  have hs : (Header.Spelling.block [' ', '\t']).IsIndented := ⟨List.all_eq_true.1 (by decide), by decide⟩
  exact ofText?_written (by decide) (by decide) (by decide) hs (by decide) (by decide) (List.reverse_perm [_, _, _])

end SkillLint
