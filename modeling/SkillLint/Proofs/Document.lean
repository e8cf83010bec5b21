import SkillLint.Document
import SkillLint.Proofs.Text.Lines

/-!
# Documents and their delimiter lines

A text is a document exactly when two of its lines are delimiters, and it is cut at the first two of them: no line before
the first or between the two is a delimiter. The cut is unique, so a document that is built line by line is read back.
-/

namespace SkillLint.Document

/-- The document is what some lines become when they are cut at the first two delimiters among them. -/
def IsCutOf (d : Document) (ls : List (List Char)) : Prop :=
  ∃ opening closing, ls = d.preamble ++ opening :: (d.header ++ closing :: d.body) ∧ isDelimiter opening = true ∧
    isDelimiter closing = true ∧ ∀ l ∈ d.preamble ++ d.header, isDelimiter l = false

/-- The number, counted from one, of the first delimiter. -/
def openingLine (d : Document) : Nat :=
  d.preamble.length + 1

/-- The number, counted from one, of the second delimiter. -/
def closingLine (d : Document) : Nat :=
  d.preamble.length + d.header.length + 2

theorem splitAtDelimiter?_eq_none_iff {ls : List (List Char)} :
    splitAtDelimiter? ls = none ↔ ls.countP isDelimiter = 0 := by
  induction ls with
  | nil => simp [splitAtDelimiter?]
  | cons l ls ih =>
    cases hl : isDelimiter l with
    | true => simp [splitAtDelimiter?, hl]
    | false => simpa [splitAtDelimiter?, hl] using ih

theorem countP_isDelimiter_eq_zero {ls : List (List Char)} (h : ∀ l ∈ ls, isDelimiter l = false) :
    ls.countP isDelimiter = 0 :=
  List.countP_eq_zero.2 fun l hl => by simp [h l hl]

/-- Lines make up a document exactly when the document is their cut. -/
theorem ofLines?_eq_some_iff {ls : List (List Char)} {d : Document} : ofLines? ls = some d ↔ d.IsCutOf ls := by
  simp only [ofLines?, Option.bind_eq_bind, Option.bind_eq_some_iff, Option.pure_def, Option.some.injEq, Prod.exists]
  constructor
  · rintro ⟨preamble, rest, h1, header, body, h2, rfl⟩
    obtain ⟨opening, rfl, ho, hp⟩ := splitAtDelimiter?_eq_some_iff.1 h1
    obtain ⟨closing, rfl, hc, hh⟩ := splitAtDelimiter?_eq_some_iff.1 h2
    refine ⟨opening, closing, rfl, ho, hc, fun l hl => ?_⟩
    rcases List.mem_append.1 hl with hl | hl
    · exact hp l hl
    · exact hh l hl
  · rintro ⟨opening, closing, rfl, ho, hc, hn⟩
    have hp : ∀ l ∈ d.preamble, isDelimiter l = false := fun l hl => hn l (List.mem_append_left _ hl)
    have hh : ∀ l ∈ d.header, isDelimiter l = false := fun l hl => hn l (List.mem_append_right _ hl)
    exact ⟨d.preamble, _, splitAtDelimiter?_eq_some_iff.2 ⟨opening, rfl, ho, hp⟩, d.header, d.body,
      splitAtDelimiter?_eq_some_iff.2 ⟨closing, rfl, hc, hh⟩, rfl⟩

/-- Lines make up no document exactly when fewer than two of them are delimiters. -/
theorem ofLines?_eq_none_iff {ls : List (List Char)} : ofLines? ls = none ↔ ls.countP isDelimiter < 2 := by
  constructor
  · intro h
    cases h1 : splitAtDelimiter? ls with
    | none =>
      have := splitAtDelimiter?_eq_none_iff.1 h1
      omega
    | some parts =>
      obtain ⟨preamble, rest⟩ := parts
      have h2 : splitAtDelimiter? rest = none := by
        cases hr : splitAtDelimiter? rest with
        | none => rfl
        | some more => simp [ofLines?, h1, hr] at h
      obtain ⟨mark, rfl, hm, hp⟩ := splitAtDelimiter?_eq_some_iff.1 h1
      rw [List.countP_append, List.countP_cons_of_pos hm, countP_isDelimiter_eq_zero hp,
        splitAtDelimiter?_eq_none_iff.1 h2]
      decide
  · intro h
    cases hd : ofLines? ls with
    | none => rfl
    | some d =>
      obtain ⟨opening, closing, rfl, ho, hc, -⟩ := ofLines?_eq_some_iff.1 hd
      rw [List.countP_append, List.countP_cons_of_pos ho, List.countP_append, List.countP_cons_of_pos hc] at h
      omega

/-! ## Line numbers -/

section

variable {d : Document} {ls above below : List (List Char)} {line : List Char}

/-- The header lines are those between the two delimiters, numbered one after the other. -/
theorem IsCutOf.getElem?_header (h : d.IsCutOf ls) (hd : d.header = above ++ line :: below) :
    ls[d.headerStart + above.length - 1]? = some line := by
  obtain ⟨opening, closing, rfl, -⟩ := h
  have hat : d.headerStart + above.length - 1 = (d.preamble ++ opening :: above).length := by
    rw [headerStart, List.length_append, List.length_cons]
    omega
  have hls : d.preamble ++ opening :: (d.header ++ closing :: d.body) =
      (d.preamble ++ opening :: above) ++ line :: (below ++ closing :: d.body) := by
    simp [hd]
  rw [hat, hls, List.getElem?_append_right (Nat.le_refl _), Nat.sub_self]
  rfl

/-- The body lines are those after the second delimiter, numbered one after the other. -/
theorem IsCutOf.getElem?_body (h : d.IsCutOf ls) (hd : d.body = above ++ line :: below) :
    ls[d.bodyStart + above.length - 1]? = some line := by
  obtain ⟨opening, closing, rfl, -⟩ := h
  have hat : d.bodyStart + above.length - 1 = (d.preamble ++ opening :: (d.header ++ closing :: above)).length := by
    simp only [bodyStart, List.length_append, List.length_cons]
    omega
  have hls : d.preamble ++ opening :: (d.header ++ closing :: d.body) =
      (d.preamble ++ opening :: (d.header ++ closing :: above)) ++ line :: below := by
    simp [hd]
  rw [hat, hls, List.getElem?_append_right (Nat.le_refl _), Nat.sub_self]
  rfl

theorem IsCutOf.mem_of_mem_body (h : d.IsCutOf ls) (hl : line ∈ d.body) : line ∈ ls := by
  obtain ⟨opening, closing, rfl, -⟩ := h
  simp [hl]

end

/-! ## Texts -/

theorem IsCutOf.newline_not_mem {d : Document} {s : List Char} (h : d.IsCutOf (Text.lines s)) : ∀ l ∈ d.body, '\n' ∉ l :=
  fun _ hl => Text.newline_not_mem_of_mem_lines (h.mem_of_mem_body hl)

theorem ofText?_eq_some_iff {content : String} {d : Document} :
    ofText? content = some d ↔ d.IsCutOf (Text.lines content.toList) :=
  ofLines?_eq_some_iff

theorem ofText?_eq_none_iff {content : String} :
    ofText? content = none ↔ (Text.lines content.toList).countP isDelimiter < 2 :=
  ofLines?_eq_none_iff

/-- A text with two delimiter lines holds a document. -/
theorem exists_of_two_delimiters {content : String} (h : 2 ≤ (Text.lines content.toList).countP isDelimiter) :
    ∃ d, ofText? content = some d := by
  cases hd : ofText? content with
  | none => exact absurd (ofText?_eq_none_iff.1 hd) (Nat.not_lt.2 h)
  | some d => exact ⟨d, rfl⟩

end SkillLint.Document
