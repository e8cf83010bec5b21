import SkillLint.Proofs.Check.Fields
import SkillLint.Proofs.Text.Join
import SkillLint.Template

/-!
# Titles

The characters of a title, and what a title tells of the name that it is made from.
-/

namespace SkillLint.Template

/-!
## The title of a valid name

A title is made of the characters of its name, of their uppercase forms and of spaces. For the characters of valid names none
of these is a line end, a backslash or a square bracket, so a title is one line without path separators and links.
-/

/-- Whether a character stays within its line and separates no path segments. -/
def isPlain (c : Char) : Bool :=
  c != '\n' && c != '\r' && c != '\\'

/-- Whether a character is plain and opens no link. -/
def isProse (c : Char) : Bool :=
  isPlain c && c != '['

theorem isPlain_iff {c : Char} : isPlain c = true ↔ c ≠ '\n' ∧ c ≠ '\r' ∧ c ≠ '\\' := by
  simp only [isPlain, Bool.and_eq_true, bne_iff_ne, and_assoc]

theorem isProse_iff {c : Char} : isProse c = true ↔ isPlain c = true ∧ c ≠ '[' := by
  rw [isProse, Bool.and_eq_true, bne_iff_ne]

theorem isProse_of_isNameChar {c : Char} (h : Check.isNameChar c = true) :
    isProse c = true ∧ (Text.uppercase c).all isProse = true :=
  Check.forall_isNameChar (p := fun c => isProse c = true ∧ (Text.uppercase c).all isProse = true) (by decide) h

/-- What holds of a space, and of the characters of valid names and their uppercase forms, holds of all characters of the title of
a name that is made of such characters. -/
theorem forall_mem_titleOf {p : Char → Bool} (hspace : p ' ' = true)
    (hchar : ∀ c, Check.isNameChar c = true → p c = true ∧ (Text.uppercase c).all p = true) {name : String}
    (h : ∀ c ∈ name.toList, Check.isNameChar c = true) : ∀ c ∈ (titleOf name).toList, p c = true := by
  intro c hc
  rw [titleOf, String.toList_ofList] at hc
  rcases Text.mem_intercalate hc with hc | ⟨part, hp, hc⟩
  · rw [List.mem_singleton.1 hc]
    exact hspace
  · obtain ⟨piece, hpiece, rfl⟩ := List.mem_map.1 hp
    have hname : ∀ d ∈ piece, Check.isNameChar d = true := fun d hd =>
      h d (Text.mem_splitOnP (List.mem_filter.1 hpiece).1 d hd).1
    cases piece with
    | nil => exact absurd hc List.not_mem_nil
    | cons first rest =>
      rcases List.mem_append.1 hc with hc | hc
      · exact List.all_eq_true.1 (hchar first (hname first List.mem_cons_self)).2 c hc
      · exact (hchar c (hname c (List.mem_cons_of_mem _ hc))).1

theorem isProse_titleOf {name : String} (h : ∀ c ∈ name.toList, Check.isNameChar c = true) :
    ∀ c ∈ (titleOf name).toList, isProse c = true :=
  forall_mem_titleOf (by decide) (fun _ hc => isProse_of_isNameChar hc) h

/-!
## Names and their titles

A title shows the words of a name, and the name with one hyphen between its words is told from it: in lowercase, with a hyphen for
each space (`titleOf_tells_name`). Hyphens at the ends of a name and hyphens behind hyphens have no words between them, so they do not show.
Everything about words follows from the equation for a hyphen between two texts (`wordsOf_append_hyphen`).
-/

variable {s : List Char}

/-! ### Words of a name -/

/-- The words of a name: what stands between its hyphens, if anything does. -/
def wordsOf (s : List Char) : List (List Char) :=
  (s.splitOn '-').filter fun part => !part.isEmpty

/-- A title is the words of its name, each with its first character in uppercase, and spaces between them. -/
theorem toList_titleOf (name : String) :
    (titleOf name).toList = [' '].intercalate ((wordsOf name.toList).map capitalize) := by
  rw [titleOf, String.toList_ofList, wordsOf]

theorem wordsOf_append_hyphen (s t : List Char) : wordsOf (s ++ '-' :: t) = wordsOf s ++ wordsOf t := by
  have hsplit : (s ++ '-' :: t).splitOn '-' = s.splitOn '-' ++ t.splitOn '-' := List.splitOnP_append_cons s t (beq_self_eq_true '-')
  rw [wordsOf, hsplit, List.filter_append, wordsOf, wordsOf]

theorem wordsOf_hyphen_cons (s : List Char) : wordsOf ('-' :: s) = wordsOf s :=
  wordsOf_append_hyphen [] s

theorem wordsOf_hyphens_append {pre : List Char} (h : ∀ c ∈ pre, c = '-') (s : List Char) : wordsOf (pre ++ s) = wordsOf s := by
  induction pre with
  | nil => rfl
  | cons c pre ih =>
    obtain ⟨rfl, hpre⟩ := List.forall_mem_cons.1 h
    rw [List.cons_append, wordsOf_hyphen_cons, ih hpre]

theorem wordsOf_append_hyphens (s : List Char) {post : List Char} (h : ∀ c ∈ post, c = '-') : wordsOf (s ++ post) = wordsOf s := by
  cases post with
  | nil => rw [List.append_nil]
  | cons c post =>
    obtain ⟨rfl, hpost⟩ := List.forall_mem_cons.1 h
    have hnone : wordsOf post = [] := by
      have := wordsOf_hyphens_append hpost []
      rwa [List.append_nil] at this
    rw [wordsOf_append_hyphen, hnone, List.append_nil]

/-- A text of hyphens has no words, and every other text has some. -/
theorem wordsOf_eq_nil_iff : wordsOf s = [] ↔ ∀ c ∈ s, c = '-' := by
  constructor
  · intro h c hc
    have hs : ['-'].intercalate (s.splitOn '-') = s := List.intercalate_splitOn '-'
    rw [← hs] at hc
    rcases Text.mem_intercalate hc with hc | ⟨part, hpart, hc⟩
    · exact List.mem_singleton.1 hc
    · have hempty := List.filter_eq_nil_iff.1 h part hpart
      rw [Bool.not_eq_true', Bool.not_eq_false, List.isEmpty_iff] at hempty
      exact absurd (hempty ▸ hc) List.not_mem_nil
  · intro h
    have := wordsOf_hyphens_append h []
    rwa [List.append_nil] at this

/-! ### Tidy names -/

/-- Whether hyphens stand in a text only where words meet: none at an end, and no two together. -/
structure IsTidy (s : List Char) : Prop where
  no_leading : s.head? ≠ some '-'
  no_trailing : s.getLast? ≠ some '-'
  no_repeated : ¬['-', '-'] <:+: s

/-- A text with one hyphen for each run of hyphens. -/
def collapse : List Char → List Char
  | c :: d :: rest => if c = '-' ∧ d = '-' then collapse (d :: rest) else c :: collapse (d :: rest)
  | s => s

/-- A text without the hyphens at its ends. -/
def withoutEnds (s : List Char) : List Char :=
  Text.dropTrailing (· == '-') (s.dropWhile (· == '-'))

/-- A name without the hyphens at its ends and with one hyphen for each run of hyphens. -/
def tidy (name : String) : String :=
  String.ofList (collapse (withoutEnds name.toList))

/-- Collapsing runs of hyphens keeps the first character. -/
theorem head?_collapse (s : List Char) : (collapse s).head? = s.head? := by
  fun_induction collapse s with
  | case1 c d rest h ih => rw [ih, h.1, h.2]; rfl
  | case2 c d rest h ih => rfl
  | case3 s => rfl

/-- Collapsing runs of hyphens keeps the last character. -/
theorem getLast?_collapse (s : List Char) : (collapse s).getLast? = s.getLast? := by
  fun_induction collapse s with
  | case1 c d rest h ih => rw [ih, List.getLast?_cons_cons]
  | case2 c d rest h ih =>
    have hne : collapse (d :: rest) ≠ [] := fun e => by
      have hhead := head?_collapse (d :: rest)
      rw [e] at hhead
      exact absurd hhead (by simp)
    rw [List.getLast?_cons_of_ne_nil hne, ih, List.getLast?_cons_cons]
  | case3 s => rfl

/-- Collapsing leaves no hyphen behind a hyphen. -/
theorem no_repeated_collapse (s : List Char) : ¬['-', '-'] <:+: collapse s := by
  fun_induction collapse s with
  | case1 c d rest h ih => exact ih
  | case2 c d rest h ih =>
    rw [List.infix_cons_iff]
    rintro (hfirst | hrest)
    · obtain ⟨rfl, hsecond⟩ := List.cons_prefix_cons.1 hfirst
      have hhead := head?_collapse (d :: rest)
      obtain ⟨more, hmore⟩ := hsecond
      rw [← hmore] at hhead
      exact h ⟨rfl, (Option.some.inj hhead).symm⟩
    · exact ih hrest
  | case3 s h =>
    intro hinfix
    have := hinfix.length_le
    rcases s with _ | ⟨c, _ | ⟨d, rest⟩⟩
    · simp at this
    · simp at this
    · exact h c d rest rfl

/-- Collapsing runs of hyphens keeps the words, whatever stands before. -/
theorem wordsOf_append_collapse (front s : List Char) : wordsOf (front ++ collapse s) = wordsOf (front ++ s) := by
  -- What stands before the rest grows by the characters passed, as it decides which of them begin words.
  fun_induction collapse s generalizing front with
  | case1 c d rest h ih =>
    obtain ⟨rfl, rfl⟩ := h
    rw [ih, wordsOf_append_hyphen, wordsOf_append_hyphen, wordsOf_hyphen_cons]
  | case2 c d rest h ih =>
    have := ih (front ++ [c])
    rwa [List.append_assoc, List.append_assoc] at this
  | case3 s => rfl

/-- A text is what is left of it without the hyphens at its ends, with those hyphens around it. -/
theorem exists_hyphens_around (s : List Char) :
    ∃ pre post, s = pre ++ (withoutEnds s ++ post) ∧ (∀ c ∈ pre, c = '-') ∧ ∀ c ∈ post, c = '-' := by
  obtain ⟨post, hs, hpost⟩ := Text.exists_dropTrailing_append (· == '-') (s.dropWhile (· == '-'))
  refine ⟨s.takeWhile (· == '-'), post, ?_, fun c hc => ?_, fun c hc => beq_iff_eq.1 (hpost c hc)⟩
  · rw [withoutEnds, ← hs, List.takeWhile_append_dropWhile]
  · exact beq_iff_eq.1 (List.all_eq_true.1 List.all_takeWhile c hc)

theorem wordsOf_withoutEnds (s : List Char) : wordsOf (withoutEnds s) = wordsOf s := by
  obtain ⟨pre, post, hs, hpre, hpost⟩ := exists_hyphens_around s
  have hwords : wordsOf s = wordsOf (pre ++ (withoutEnds s ++ post)) := congrArg wordsOf hs
  rw [hwords, wordsOf_hyphens_append hpre, wordsOf_append_hyphens _ hpost]

theorem wordsOf_tidy (name : String) : wordsOf (tidy name).toList = wordsOf name.toList := by
  rw [tidy, String.toList_ofList]
  exact (wordsOf_append_collapse [] _).trans (wordsOf_withoutEnds _)

/-- A tidied name is tidy. -/
theorem isTidy_tidy (name : String) : IsTidy (tidy name).toList := by
  rw [tidy, String.toList_ofList]
  refine ⟨?_, ?_, no_repeated_collapse _⟩
  · rw [head?_collapse]
    intro hhead
    obtain ⟨post, hs, -⟩ := Text.exists_dropTrailing_append (· == '-') (name.toList.dropWhile (· == '-'))
    have hnot := List.head?_dropWhile_not (· == '-') name.toList
    rw [hs, ← withoutEnds, List.head?_append, hhead] at hnot
    exact absurd hnot (by simp)
  · rw [getLast?_collapse]
    intro hlast
    exact absurd (Text.getLast_dropTrailing (· == '-') _ '-' hlast) (by decide)

theorem exists_splitOn_cons {c : Char} (h : c ≠ '-') (s : List Char) :
    ∃ first more, s.splitOn '-' = first :: more ∧ (c :: s).splitOn '-' = (c :: first) :: more := by
  obtain ⟨first, more, hs⟩ := List.exists_cons_of_ne_nil (List.splitOn_ne_nil '-' s)
  refine ⟨first, more, hs, ?_⟩
  rw [List.splitOn_cons_eq_if_modifyHead, if_neg (by simpa using h), hs, List.modifyHead_cons]

/-- No piece behind the first one is empty in a text without hyphens behind hyphens and at its end. -/
theorem nil_notMem_tail_splitOn (hlast : s.getLast? ≠ some '-') (hrepeated : ¬['-', '-'] <:+: s) : [] ∉ (s.splitOn '-').tail := by
  induction s with
  | nil => simp
  | cons c s ih =>
    have hlast' : s.getLast? ≠ some '-' := fun e => by
      have hne : s ≠ [] := by
        rintro rfl
        simp at e
      exact hlast (by rw [List.getLast?_cons_of_ne_nil hne, e])
    have htail := ih hlast' fun hinfix => hrepeated (List.infix_cons hinfix)
    by_cases hc : c = '-'
    · -- The piece behind the hyphen is not empty, as another character follows.
      subst hc
      rw [List.splitOn_cons_eq_if_modifyHead, if_pos (beq_self_eq_true '-'), List.tail_cons]
      cases s with
      | nil => exact absurd rfl hlast
      | cons d s =>
        have hd : d ≠ '-' := by
          rintro rfl
          exact hrepeated (List.prefix_append ['-', '-'] s).isInfix
        obtain ⟨first, more, -, hs⟩ := exists_splitOn_cons hd s
        rw [hs] at htail ⊢
        exact fun hm => (List.mem_cons.1 hm).elim (by simp) htail
    · obtain ⟨first, more, hs, hcs⟩ := exists_splitOn_cons hc s
      rw [hs] at htail
      rw [hcs]
      exact htail

/-- The words of a tidy text with hyphens between them are the text. -/
theorem intercalate_wordsOf (h : IsTidy s) : ['-'].intercalate (wordsOf s) = s := by
  cases s with
  | nil => rfl
  | cons c s =>
    have hc : c ≠ '-' := fun e => h.no_leading (by rw [e]; rfl)
    have htail := nil_notMem_tail_splitOn h.no_trailing h.no_repeated
    obtain ⟨first, more, -, hs⟩ := exists_splitOn_cons hc s
    have hwords : wordsOf (c :: s) = (c :: s).splitOn '-' := by
      refine List.filter_eq_self.2 fun part hpart => ?_
      rw [hs] at hpart htail
      rw [Bool.not_eq_true', List.isEmpty_eq_false_iff]
      rintro rfl
      exact (List.mem_cons.1 hpart).elim (by simp) htail
    rw [hwords, List.intercalate_splitOn]

theorem tidy_eq {name : String} (h : IsTidy name.toList) : tidy name = name := by
  have hwords := intercalate_wordsOf (isTidy_tidy name)
  rw [wordsOf_tidy, intercalate_wordsOf h] at hwords
  exact (String.toList_inj.1 hwords).symm

/-! ### Titles -/

theorem uppercase_ne_nil (c : Char) : Text.uppercase c ≠ [] := by
  have hlong : ∀ entry ∈ Text.longUppercase, entry.2 ≠ [] := by decide
  rw [Text.uppercase]
  split
  · rename_i form hform
    obtain ⟨above, below, htable, -⟩ := List.lookup_eq_some_iff.1 hform
    exact mt List.map_eq_nil_iff.1 (hlong (c.toNat, form) (by rw [htable]; simp))
  · split <;> exact List.cons_ne_nil _ _

theorem capitalize_ne_nil (h : s ≠ []) : capitalize s ≠ [] := by
  obtain ⟨c, rest, rfl⟩ := List.exists_cons_of_ne_nil h
  exact List.append_ne_nil_of_left_ne_nil (uppercase_ne_nil c) rest

/-- A name has the title of its tidied form. -/
theorem titleOf_eq_titleOf_tidy (name : String) : titleOf name = titleOf (tidy name) := by
  rw [← String.toList_inj, toList_titleOf, toList_titleOf, wordsOf_tidy]

/-- A title is empty when its name is made of hyphens only, and not otherwise. -/
theorem titleOf_eq_empty_iff {name : String} : titleOf name = "" ↔ ∀ c ∈ name.toList, c = '-' := by
  rw [← wordsOf_eq_nil_iff, ← String.toList_eq_nil_iff, toList_titleOf]
  constructor
  · intro h
    cases hwords : wordsOf name.toList with
    | nil => rfl
    | cons word more =>
      have hword : word ≠ [] := by
        have hmem : word ∈ wordsOf name.toList := hwords ▸ List.mem_cons_self
        simpa using (List.mem_filter.1 hmem).2
      have hhead := Text.head?_intercalate_cons [' '] (capitalize_ne_nil hword) (more.map capitalize)
      rw [hwords, List.map_cons] at h
      rw [h] at hhead
      exact absurd (List.head?_eq_none_iff.1 hhead.symm) (capitalize_ne_nil hword)
  · intro h
    rw [h]
    rfl

/-! ### Names told from titles -/

/-- Whether a text is made of lowercase ASCII letters, digits and hyphens. -/
def IsNameText (s : List Char) : Prop :=
  ∀ c ∈ s, ('a' ≤ c ∧ c ≤ 'z') ∨ ('0' ≤ c ∧ c ≤ '9') ∨ c = '-'

instance (s : List Char) : Decidable (IsNameText s) :=
  decidable_of_iff (s.all Check.isNameChar = true) (by simp only [IsNameText, List.all_eq_true, Check.isNameChar_iff])

/-- A hyphen for a space, and every other character for itself. -/
def hyphenate (c : Char) : Char :=
  if c = ' ' then '-' else c

/-- The name that is told from a title: the title in lowercase, with hyphens for its spaces. -/
def nameOfTitle (title : String) : String :=
  title.toLower.map hyphenate

/-- Names are told from titles character by character. -/
theorem toList_nameOfTitle (title : String) :
    (nameOfTitle title).toList = title.toList.map fun c => hyphenate c.toLower := by
  have hlower : title.toLower.toList = title.toList.map Char.toLower := String.toList_map
  rw [nameOfTitle, String.toList_map, hlower, List.map_map]
  rfl

/-- The characters of valid names are told from themselves and from their uppercase forms. -/
theorem hyphenate_of_isNameChar {c : Char} (h : Check.isNameChar c = true) :
    hyphenate c.toLower = c ∧ (Text.uppercase c).map (fun d => hyphenate d.toLower) = [c] :=
  Check.forall_isNameChar
    (p := fun c => hyphenate c.toLower = c ∧ (Text.uppercase c).map (fun d => hyphenate d.toLower) = [c]) (by decide) h

theorem isAscii_of_isNameChar {c : Char} (h : Check.isNameChar c = true) :
    decide (c.toNat < 128) = true ∧ ((Text.uppercase c).all fun d => d.toNat < 128) = true :=
  Check.forall_isNameChar
    (p := fun c => decide (c.toNat < 128) = true ∧ ((Text.uppercase c).all fun d => d.toNat < 128) = true) (by decide) h

/-- A word of valid characters is told from the word with its first character in uppercase. -/
theorem map_capitalize (h : ∀ c ∈ s, Check.isNameChar c = true) :
    (capitalize s).map (fun c => hyphenate c.toLower) = s := by
  cases s with
  | nil => rfl
  | cons c rest =>
    obtain ⟨hc, hrest⟩ := List.forall_mem_cons.1 h
    rw [capitalize, List.map_append, (hyphenate_of_isNameChar hc).2,
      List.map_congr_left fun d hd => (hyphenate_of_isNameChar (hrest d hd)).1]
    exact congrArg (c :: ·) (List.map_id' rest)

/-- From the title of a name of valid characters the tidied name is told. -/
theorem nameOfTitle_titleOf {name : String} (h : ∀ c ∈ name.toList, Check.isNameChar c = true) :
    nameOfTitle (titleOf name) = tidy name := by
  have hwords : ((wordsOf name.toList).map capitalize).map (List.map fun c => hyphenate c.toLower) = wordsOf name.toList := by
    have hword : ∀ word ∈ wordsOf name.toList, (capitalize word).map (fun c => hyphenate c.toLower) = word := fun word hw =>
      map_capitalize fun c hc => h c (Text.mem_splitOnP (List.mem_filter.1 hw).1 c hc).1
    rw [List.map_map]
    exact (List.map_congr_left hword).trans (List.map_id' _)
  have htidy := intercalate_wordsOf (isTidy_tidy name)
  rw [wordsOf_tidy] at htidy
  rw [← String.toList_inj, toList_nameOfTitle, toList_titleOf, Text.map_intercalate, hwords]
  exact htidy

/-- The title of a name is that of the name without the hyphens at its ends and with one hyphen for each run of hyphens, and it is
empty when the name is made of hyphens only, and not otherwise. For a name of lowercase ASCII letters, digits and hyphens the title is
ASCII too, and in lowercase and with a hyphen for each space it is the tidied name. This is the name itself if the name is tidy, so
different tidy names have different titles. -/
theorem titleOf_tells_name (name : String) :
    titleOf name = titleOf (tidy name) ∧ IsTidy (tidy name).toList ∧
    (titleOf name = "" ↔ ∀ c ∈ name.toList, c = '-') ∧
    (IsNameText name.toList →
      (∀ c ∈ (titleOf name).toList, c.toNat < 128) ∧ nameOfTitle (titleOf name) = tidy name ∧
      (IsTidy name.toList → nameOfTitle (titleOf name) = name ∧
        ∀ other : String, IsNameText other.toList → IsTidy other.toList → titleOf other = titleOf name → other = name)) := by
  refine ⟨titleOf_eq_titleOf_tidy name, isTidy_tidy name, titleOf_eq_empty_iff, fun hname => ?_⟩
  have hchars : ∀ {s : List Char}, IsNameText s → ∀ c ∈ s, Check.isNameChar c = true := fun hs c hc =>
    Check.isNameChar_iff.2 (hs c hc)
  have htold := nameOfTitle_titleOf (hchars hname)
  refine ⟨fun c hc => ?_, htold, fun htidy => ?_⟩
  · exact of_decide_eq_true
      (forall_mem_titleOf (p := fun c => c.toNat < 128) (by decide) (fun _ hd => isAscii_of_isNameChar hd) (hchars hname) c hc)
  · rw [tidy_eq htidy] at htold
    refine ⟨htold, fun other hother hotherTidy htitle => ?_⟩
    have hotherTold := nameOfTitle_titleOf (hchars hother)
    rw [tidy_eq hotherTidy, htitle] at hotherTold
    exact hotherTold.symm.trans htold

/-- Hyphens at the ends and behind hyphens do not show in a title, and the tidy name is told from it; the word that begins with a digit
has no capital. -/
theorem titleOf_tells_name_stray :
    titleOf "--pdf---2d-forms-" = "Pdf 2d Forms" ∧ tidy "--pdf---2d-forms-" = "pdf-2d-forms" ∧
    nameOfTitle (titleOf "--pdf---2d-forms-") = "pdf-2d-forms" ∧ nameOfTitle (titleOf "pdf-2d-forms") = "pdf-2d-forms" := by
  obtain ⟨-, -, -, hstray⟩ := titleOf_tells_name "--pdf---2d-forms-"
  obtain ⟨-, -, -, htidy⟩ := titleOf_tells_name "pdf-2d-forms"
  have htidied : tidy "--pdf---2d-forms-" = "pdf-2d-forms" := by decide
  refine ⟨by decide, htidied, ?_, ?_⟩
  · exact (hstray (by decide)).2.1.trans htidied
  · have hrepeated : ¬['-', '-'] <:+: "pdf-2d-forms".toList := by
      rw [← Text.hasPart_iff]
      decide
    exact ((htidy (by decide)).2.2 ⟨by decide, by decide, hrepeated⟩).1

end SkillLint.Template
