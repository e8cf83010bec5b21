import Mathlib.Data.List.Nodup
import SkillLint.Proofs.Header.Written

/-!
# Headers made of entries

A header is made of entries when each top-level line of it has a colon and none of its lines stands above the first of them. An
entry is such a line with the lines below it up to the next one. A field is then told by the entry with its key alone, whatever
stands in the others (`value?_linesOf`, `toolsOf_linesOf`), so that the fields do not depend on the order of entries with
different keys. Of such entries each draws one finding at most, which depends on no other one (`lineFindings_append_lines`).
-/

namespace SkillLint.Header

/-- An entry of a header: a top-level line with a colon, and the lines below it, which are not top-level. -/
structure Entry where
  line : List Char
  below : List (List Char)
  isTopLevel_line : isTopLevel line = true
  colon_mem : ':' ∈ line
  isTopLevel_below : ∀ l ∈ below, isTopLevel l = false

namespace Entry

/-- The key of an entry. -/
def key (e : Entry) : String :=
  String.ofList (Text.trim (e.line.takeWhile (· != ':')))

/-- The value of an entry. -/
def value (e : Entry) : List Char :=
  valueOf e.line

/-- The lines of an entry. -/
def lines (e : Entry) : List (List Char) :=
  e.line :: e.below

/-- The tools that an entry names if its key is that of the tool list: those of its value, or of the items below an empty one. -/
def tools (e : Entry) : List String :=
  splitToolList (String.ofList e.value) ++ if e.value = [] then e.below.flatMap toolsOfItem else []

theorem keyOf?_line (e : Entry) : keyOf? e.line = some e.key := by
  rw [keyOf?, if_pos e.colon_mem, key]

theorem isEntryOf_line (e : Entry) (k : String) : isEntryOf k e.line = (e.key == k) := by
  rw [isEntryOf, e.isTopLevel_line, e.keyOf?_line, Bool.true_and]
  rfl

theorem isEntryOf_below (e : Entry) {l : List Char} (hl : l ∈ e.below) (k : String) : isEntryOf k l = false := by
  rw [isEntryOf, e.isTopLevel_below l hl, Bool.false_and]

end Entry

/-- The lines of some entries, one entry after the other. -/
def linesOf (entries : List Entry) : List (List Char) :=
  entries.flatMap Entry.lines

/-- The first of some entries with a key. -/
def entryOf? (key : String) (entries : List Entry) : Option Entry :=
  entries.find? fun e => e.key == key

variable {entries entries' : List Entry}

theorem linesOf_cons (e : Entry) (entries : List Entry) :
    linesOf (e :: entries) = e.line :: (e.below ++ linesOf entries) := rfl

/-! ## Fields -/

/-- Entries of other keys have no line of a key. -/
theorem isEntryOf_linesOf {key : String} (h : ∀ e ∈ entries, e.key ≠ key) :
    ∀ l ∈ linesOf entries, isEntryOf key l = false := by
  intro l hl
  obtain ⟨e, he, hl⟩ := List.mem_flatMap.1 hl
  rcases List.mem_cons.1 hl with rfl | hl
  · rw [e.isEntryOf_line]
    exact beq_eq_false_iff_ne.2 (h e he)
  · exact e.isEntryOf_below hl key

/-- The value of a key is that of the first entry with the key. -/
theorem value?_linesOf (key : String) (entries : List Entry) :
    value? key (linesOf entries) = (entryOf? key entries).map Entry.value := by
  induction entries with
  | nil => rfl
  | cons e entries ih =>
    have hbelow : e.below.find? (isEntryOf key) = none := by
      refine List.find?_eq_none.2 ?_
      intro l hl
      simp [e.isEntryOf_below hl key]
    rw [entryOf?, linesOf_cons, value?]
    cases hk : e.key == key with
    | true =>
      rw [List.find?_cons_of_pos (by rw [e.isEntryOf_line, hk]), List.find?_cons_of_pos (by exact hk)]
      rfl
    | false =>
      rw [List.find?_cons_of_neg (by rw [e.isEntryOf_line, hk]; decide), List.find?_append, hbelow, Option.none_or,
        List.find?_cons_of_neg (by rw [hk]; decide)]
      exact ih

/-- Behind an entry stands nothing or a top-level line. -/
theorem isTopLevel_head_linesOf (entries : List Entry) : ∀ l ∈ (linesOf entries).head?, isTopLevel l = true := by
  intro l hl
  cases entries with
  | nil => exact absurd hl (by simp [linesOf])
  | cons e entries =>
    rw [linesOf_cons, List.head?_cons, Option.mem_some_iff] at hl
    exact hl ▸ e.isTopLevel_line

/-- The tools are those that the first entry of the tool list names. -/
theorem toolsOf_linesOf (entries : List Entry) : toolsOf (linesOf entries) = (entryOf? toolsKey entries).map Entry.tools := by
  cases he : entryOf? toolsKey entries with
  | none => rw [toolsOf, value?_linesOf, he, Option.map_none, Option.map_none, Option.map_none]
  | some e =>
    obtain ⟨hkey, before, after, rfl, hbefore⟩ := List.find?_eq_some_iff_append.1 he
    have habove : ∀ l ∈ linesOf before, isEntryOf toolsKey l = false := by
      refine isEntryOf_linesOf ?_
      intro e' he'
      simpa using hbefore e' he'
    have hlines : linesOf (before ++ e :: after) = linesOf before ++ (e.line :: (e.below ++ linesOf after)) := by
      rw [linesOf, List.flatMap_append]
      rfl
    rw [hlines, toolsOf_split habove (by rw [e.isEntryOf_line, hkey]) e.isTopLevel_below (isTopLevel_head_linesOf after)]
    rfl

/-- Among entries with different keys there is one entry of each key. -/
theorem entryOf?_eq_some_iff (h : (entries.map Entry.key).Nodup) {key : String} {e : Entry} :
    entryOf? key entries = some e ↔ e ∈ entries ∧ e.key = key := by
  constructor
  · intro he
    exact ⟨List.mem_of_find?_eq_some he, by simpa using List.find?_some he⟩
  · rintro ⟨he, rfl⟩
    cases hfound : entryOf? e.key entries with
    | none =>
      have hnone := List.find?_eq_none.1 hfound e he
      simp at hnone
    | some found =>
      have hkey : found.key = e.key := by simpa using List.find?_some hfound
      rw [List.inj_on_of_nodup_map h (List.mem_of_find?_eq_some hfound) he hkey]

/-- The entry of a key is the same in every order of entries with different keys. -/
theorem entryOf?_of_perm (hp : entries.Perm entries') (h : (entries.map Entry.key).Nodup) (key : String) :
    entryOf? key entries' = entryOf? key entries := by
  have h' : (entries'.map Entry.key).Nodup := (hp.map Entry.key).nodup_iff.1 h
  refine Option.ext ?_
  intro e
  rw [entryOf?_eq_some_iff h, entryOf?_eq_some_iff h', hp.mem_iff]

/-- The fields do not depend on the order of entries with different keys. -/
theorem fieldsOf_linesOf_of_perm (hp : entries.Perm entries') (h : (entries.map Entry.key).Nodup) :
    fieldsOf (linesOf entries') = fieldsOf (linesOf entries) := by
  simp only [fieldsOf, value?_linesOf, toolsOf_linesOf, entryOf?_of_perm hp h]

/-! ## Findings -/

/-- The keys of a header are those of its entries. -/
theorem keysOf_linesOf (entries : List Entry) : keysOf (linesOf entries) = entries.map Entry.key := by
  induction entries with
  | nil => rfl
  | cons e entries ih =>
    have hbelow : e.below.filter isTopLevel = [] := by
      refine List.filter_eq_nil_iff.2 ?_
      intro l hl
      simp [e.isTopLevel_below l hl]
    rw [keysOf] at ih
    rw [linesOf_cons, keysOf, List.filter_cons_of_pos e.isTopLevel_line, List.filter_append, hbelow, List.nil_append,
      List.filterMap_cons, e.keyOf?_line, ih, List.map_cons]

/-- Lines that are not top-level draw no finding. -/
theorem lineFindings_append_of_not_isTopLevel (number : Nat) (above : List (List Char)) {below : List (List Char)}
    (h : ∀ l ∈ below, isTopLevel l = false) : lineFindings number (above ++ below) = lineFindings number above := by
  induction below generalizing above with
  | nil => rw [List.append_nil]
  | cons l below ih =>
    obtain ⟨hl, hbelow⟩ := List.forall_mem_cons.1 h
    have hnone : lineFinding? above (number + above.length) l = none := by simp [lineFinding?, hl]
    rw [List.append_cons, ih _ hbelow, lineFindings_append, hnone, Option.toList_none, List.append_nil]

/-- The finding that an entry draws when its key is new: that the key is not known, if it is not. -/
def Entry.findings (number : Nat) (e : Entry) : List Finding :=
  if e.key ∈ knownKeys then [] else [unknownKey number e.key]

/-- An entry with a new key draws its finding on its first line. -/
theorem lineFindings_append_lines (number : Nat) {above : List (List Char)} {e : Entry} (h : e.key ∉ keysOf above) :
    lineFindings number (above ++ e.lines) = lineFindings number above ++ e.findings (number + above.length) := by
  have hline : (lineFinding? above (number + above.length) e.line).toList = e.findings (number + above.length) := by
    rw [lineFinding?, if_pos e.isTopLevel_line, e.keyOf?_line, Entry.findings]
    by_cases hknown : e.key ∈ knownKeys
    · simp [h, hknown]
    · simp [h, hknown]
  rw [Entry.lines, List.append_cons, lineFindings_append_of_not_isTopLevel _ _ e.isTopLevel_below, lineFindings_append, hline]

end SkillLint.Header
