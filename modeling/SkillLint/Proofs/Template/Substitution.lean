import SkillLint.Proofs.Text.Trim
import SkillLint.Template

/-!
# Substitution

How placeholders are read, and the text that substitution makes of another one.
-/

namespace SkillLint.Template

/-!
## Substitution piece by piece

Substitution passes over text without an opening brace, and puts the value of a word in the place of its placeholder, whatever
the value holds: the search goes on behind the placeholder, not in the value.
-/

variable (values : List (String × String))

theorem readPlaceholder?_cons_of_ne {c : Char} (h : c ≠ '{') (rest : List Char) : readPlaceholder? (c :: rest) = none := by
  unfold readPlaceholder?
  split
  · rename_i e
    exact absurd (List.cons.inj e).1 h
  · rfl

theorem substituteFrom_append {s : List Char} (h : '{' ∉ s) (rest : List Char) :
    substituteFrom values 0 (s ++ rest) = s ++ substituteFrom values 0 rest := by
  induction s with
  | nil => rfl
  | cons c s ih =>
    have hc : c ≠ '{' := fun e => h (e ▸ List.mem_cons_self)
    rw [List.cons_append, substituteFrom, readPlaceholder?_cons_of_ne hc, ih fun e => h (List.mem_cons_of_mem _ e)]
    rfl

theorem substituteFrom_of_no_brace {s : List Char} (h : '{' ∉ s) : substituteFrom values 0 s = s := by
  have := substituteFrom_append values h []
  rwa [List.append_nil, substituteFrom, List.append_nil] at this

/-- What belongs to an earlier placeholder is skipped. -/
theorem substituteFrom_skip (s rest : List Char) :
    substituteFrom values s.length (s ++ rest) = substituteFrom values 0 rest := by
  induction s with
  | nil => rfl
  | cons c s ih => exact ih

/-- The word of a placeholder is read. -/
theorem readPlaceholder?_placeholder {word : List Char} (hne : word ≠ []) (hw : ∀ c ∈ word, Text.isWord c = true)
    (rest : List Char) : readPlaceholder? (placeholder word ++ rest) = some word := by
  have hclose : Text.isWord '}' = false := by decide +kernel
  have hlead : Text.leadingWord (word ++ '}' :: '}' :: rest) = word := by
    rw [Text.leadingWord, List.takeWhile_append_of_pos hw, List.takeWhile_cons_of_neg (by simp [hclose]), List.append_nil]
  have he : placeholder word ++ rest = '{' :: '{' :: (word ++ '}' :: '}' :: rest) := by simp [placeholder]
  rw [he, readPlaceholder?, hlead, List.drop_left]
  simp [List.isEmpty_eq_false_iff.2 hne]

/-- A placeholder is replaced by the value of its word. -/
theorem substituteFrom_placeholder {word : List Char} (hne : word ≠ []) (hw : ∀ c ∈ word, Text.isWord c = true)
    (rest : List Char) :
    substituteFrom values 0 (placeholder word ++ rest) = valueOf values word ++ substituteFrom values 0 rest := by
  have hread := readPlaceholder?_placeholder hne hw rest
  have he : placeholder word ++ rest = '{' :: (('{' :: (word ++ ['}', '}'])) ++ rest) := by simp [placeholder]
  have hlen : word.length + 3 = ('{' :: (word ++ ['}', '}'])).length := by simp
  rw [he] at hread ⊢
  rw [substituteFrom, hread]
  simp only [hlen]
  exact congrArg (valueOf values word ++ ·) (substituteFrom_skip values _ rest)

/-!
## Texts cut at their placeholders

Placeholders neither overlap nor reach into one another (`placeholder_apart`), so a text is cut in one way into its placeholders and
the text between them (`Cut.IsOf.unique`), whatever braces stand around them. Substitution keeps the pieces and puts the values
between them, and as the values are put in where the text was cut, they are not searched (`substitute_cut`).
-/

variable {s before behind word : List Char}

/-! ### Placeholders in a text -/

/-- The words that placeholders have: word characters, at least one. -/
def IsVariable (word : List Char) : Prop :=
  word ≠ [] ∧ ∀ c ∈ word, Text.isWord c = true

/-- Neither a variable nor the end of its placeholder has an opening brace. -/
theorem IsVariable.no_brace (h : IsVariable word) : '{' ∉ word ++ ['}', '}'] := by
  intro hm
  rcases List.mem_append.1 hm with hm | hm
  · have hbrace : Text.isWord '{' = false := by decide +kernel
    rw [h.2 _ hm] at hbrace
    exact Bool.noConfusion hbrace
  · exact absurd hm (by decide)

/-- The placeholder that a text starts with is read, and nothing else. -/
theorem readPlaceholder?_eq_some_iff :
    readPlaceholder? s = some word ↔ IsVariable word ∧ ∃ rest, s = placeholder word ++ rest := by
  constructor
  · intro h
    obtain ⟨hne, rest, hs⟩ := readPlaceholder?_sound h
    refine ⟨⟨hne, ?_⟩, rest, hs⟩
    unfold readPlaceholder? at h
    split at h
    · rename_i inner
      obtain ⟨-, he⟩ := Option.ite_none_right_eq_some.1 h
      rw [← Option.some.inj he]
      exact fun c hc => List.all_eq_true.1 List.all_takeWhile c hc
    · exact absurd h (by simp)
  · rintro ⟨hv, rest, rfl⟩
    exact readPlaceholder?_placeholder hv.1 hv.2 rest

/-- A text starts with one placeholder at most. -/
theorem placeholder_append_inj {word' rest rest' : List Char} (hv : IsVariable word) (hv' : IsVariable word')
    (h : placeholder word ++ rest = placeholder word' ++ rest') : word = word' ∧ rest = rest' := by
  have hread : some word = some word' := by
    rw [← readPlaceholder?_placeholder hv.1 hv.2 rest, h, readPlaceholder?_placeholder hv'.1 hv'.2 rest']
  obtain rfl := Option.some.inj hread
  exact ⟨rfl, List.append_cancel_left h⟩

/-- No placeholder begins inside another one. -/
theorem placeholder_apart {word' front rest rest' : List Char} (hv : IsVariable word) (hne : front ≠ [])
    (h : placeholder word ++ rest = front ++ (placeholder word' ++ rest')) :
    ∃ middle, front = placeholder word ++ middle ∧ rest = middle ++ (placeholder word' ++ rest') := by
  have hno := hv.no_brace
  rcases List.append_eq_append_iff.1 h with ⟨middle, hfront, hrest⟩ | ⟨part, hplaceholder, hpart⟩
  · exact ⟨middle, hfront, hrest⟩
  · cases part with
    | nil =>
      rw [List.append_nil] at hplaceholder
      exact ⟨[], by rw [hplaceholder, List.append_nil], hpart.symm⟩
    | cons d part =>
      obtain rfl : '{' = d := (List.cons.inj hpart).1
      have hsecond : '{' :: (word' ++ ['}', '}']) ++ rest' = part ++ rest := (List.cons.inj hpart).2
      obtain ⟨c, front, rfl⟩ := List.exists_cons_of_ne_nil hne
      have hbehind : '{' :: (word ++ ['}', '}']) = front ++ '{' :: part := (List.cons.inj hplaceholder).2
      cases front with
      | nil =>
        -- The other placeholder begins at the second brace, so its second brace is the first character of the word.
        have hinner : word ++ ['}', '}'] = part := (List.cons.inj hbehind).2
        obtain ⟨e, word, rfl⟩ := List.exists_cons_of_ne_nil hv.1
        rw [← hinner] at hsecond
        obtain rfl : '{' = e := (List.cons.inj hsecond).1
        exact absurd List.mem_cons_self hno
      | cons e front =>
        have hinner : word ++ ['}', '}'] = front ++ '{' :: part := (List.cons.inj hbehind).2
        exact absurd (by rw [hinner]; simp) hno

/-- A text without a complete placeholder. -/
def HasNoPlaceholder (s : List Char) : Prop :=
  ∀ word, IsVariable word → ¬placeholder word <:+: s

/-! ### Cuts -/

/-- A text cut into pieces: some text, and then placeholders, given by their words, each with some text behind it. -/
structure Cut where
  first : List Char
  more : List (List Char × List Char)

/-- The pieces of a cut put together again, with a text in the place of each placeholder. -/
def Cut.fill (put : List Char → List Char) (cut : Cut) : List Char :=
  cut.first ++ cut.more.flatMap fun piece => put piece.1 ++ piece.2

/-- A text is cut at its placeholders: between the placeholders of variables there is no complete placeholder left. -/
structure Cut.IsOf (cut : Cut) (s : List Char) : Prop where
  text : cut.fill placeholder = s
  first : HasNoPlaceholder cut.first
  more : ∀ piece ∈ cut.more, IsVariable piece.1 ∧ HasNoPlaceholder piece.2

theorem Cut.fill_cons (put : List Char → List Char) (first word next : List Char) (more : List (List Char × List Char)) :
    Cut.fill put ⟨first, (word, next) :: more⟩ = first ++ (put word ++ Cut.fill put ⟨next, more⟩) := by
  simp only [Cut.fill, List.flatMap_cons, List.append_assoc]

/-- The rest of a cut is a cut of the rest. -/
theorem Cut.IsOf.tail {first word next : List Char} {more : List (List Char × List Char)}
    (h : Cut.IsOf ⟨first, (word, next) :: more⟩ s) :
    IsVariable word ∧ Cut.IsOf ⟨next, more⟩ (Cut.fill placeholder ⟨next, more⟩) := by
  obtain ⟨⟨hv, hnext⟩, hmore⟩ := List.forall_mem_cons.1 h.more
  exact ⟨hv, rfl, hnext, hmore⟩

/-- Every placeholder of a text begins behind the first piece of a cut. -/
theorem Cut.IsOf.exists_eq_first_append {cut : Cut} (h : cut.IsOf s) (hv : IsVariable word)
    (hs : s = before ++ (placeholder word ++ behind)) : ∃ middle, before = cut.first ++ middle ∧
      cut.more.flatMap (fun piece => placeholder piece.1 ++ piece.2) = middle ++ (placeholder word ++ behind) := by
  obtain ⟨first, more⟩ := cut
  have htext : first ++ more.flatMap (fun piece => placeholder piece.1 ++ piece.2) = before ++ (placeholder word ++ behind) :=
    h.text.trans hs
  rcases List.append_eq_append_iff.1 htext with ⟨middle, hbefore, hmore⟩ | ⟨part, hfirst, hpart⟩
  · exact ⟨middle, hbefore, hmore⟩
  · by_cases hnil : part = []
    · subst hnil
      rw [List.append_nil] at hfirst
      exact ⟨[], by rw [hfirst, List.append_nil], hpart.symm⟩
    · -- The placeholder would begin in the first piece, and end in it too.
      refine absurd ?_ (h.first word hv)
      cases more with
      | nil =>
        rw [List.flatMap_nil, List.append_nil] at hpart
        exact ⟨before, behind, by rw [hfirst, ← hpart, List.append_assoc]⟩
      | cons piece more =>
        rw [List.flatMap_cons, List.append_assoc] at hpart
        obtain ⟨middle, rfl, -⟩ := placeholder_apart hv hnil hpart
        exact ⟨before, middle, by rw [hfirst, List.append_assoc]⟩

/-- Every placeholder of a text is one of those at which a cut was made, with what is before it. -/
theorem Cut.IsOf.exists_piece {cut : Cut} (h : cut.IsOf s) (hv : IsVariable word)
    (hs : s = before ++ (placeholder word ++ behind)) : ∃ earlier literal later,
      cut.more = earlier ++ (word, literal) :: later ∧ before = Cut.fill placeholder ⟨cut.first, earlier⟩ := by
  obtain ⟨first, more⟩ := cut
  induction more generalizing first s before with
  | nil =>
    obtain ⟨middle, -, hmiddle⟩ := h.exists_eq_first_append hv hs
    exact absurd hmiddle.symm (by simp [placeholder])
  | cons piece more ih =>
    obtain ⟨word', next⟩ := piece
    obtain ⟨hv', hrest⟩ := h.tail
    obtain ⟨middle, rfl, hmiddle⟩ := h.exists_eq_first_append hv hs
    rw [List.flatMap_cons, List.append_assoc] at hmiddle
    by_cases hnil : middle = []
    · subst hnil
      obtain ⟨rfl, -⟩ := placeholder_append_inj hv' hv hmiddle
      exact ⟨[], next, more, rfl, by simp [Cut.fill]⟩
    · obtain ⟨before, rfl, hbehind⟩ := placeholder_apart hv' hnil hmiddle
      obtain ⟨earlier, literal, later, rfl, rfl⟩ := ih hbehind _ hrest
      exact ⟨(word', next) :: earlier, literal, later, rfl, by rw [Cut.fill_cons]⟩

/-- A text is cut at its placeholders in one way. -/
theorem Cut.IsOf.unique {cut cut' : Cut} (h : cut.IsOf s) (h' : cut'.IsOf s) : cut = cut' := by
  obtain ⟨first, more⟩ := cut
  obtain ⟨first', more'⟩ := cut'
  induction more generalizing first first' more' s with
  | nil =>
    cases more' with
    | nil =>
      have hfirst : first ++ [] = first' ++ [] := h.text.trans h'.text.symm
      rw [List.append_cancel_right hfirst]
    | cons piece' more' =>
      obtain ⟨hv', -⟩ := h'.tail
      obtain ⟨middle, -, hmiddle⟩ := h.exists_eq_first_append hv' (h'.text.symm.trans (fill_cons ..))
      exact absurd hmiddle.symm (by simp [placeholder])
  | cons piece more ih =>
    obtain ⟨word, next⟩ := piece
    obtain ⟨hv, hrest⟩ := h.tail
    have hs := h.text.symm.trans (fill_cons ..)
    obtain ⟨middle, hfirst, hmiddle⟩ := h'.exists_eq_first_append hv hs
    cases more' with
    | nil => exact absurd hmiddle.symm (by simp [placeholder])
    | cons piece' more' =>
      obtain ⟨word', next'⟩ := piece'
      obtain ⟨hv', hrest'⟩ := h'.tail
      have hs' := h'.text.symm.trans (fill_cons ..)
      obtain ⟨middle', hfirst', -⟩ := h.exists_eq_first_append hv' hs'
      obtain rfl : first = first' := by
        have hlength := congrArg List.length hfirst
        have hlength' := congrArg List.length hfirst'
        simp only [List.length_append] at hlength hlength'
        have hmiddle : middle = [] := List.eq_nil_of_length_eq_zero (by omega)
        rw [hfirst, hmiddle, List.append_nil]
      obtain ⟨rfl, htail⟩ := placeholder_append_inj hv hv' (List.append_cancel_left (hs.symm.trans hs'))
      rw [← htail] at hrest'
      obtain ⟨rfl, rfl⟩ := Cut.mk.inj (ih next hrest next' more' hrest')
      rfl

/-! ### Substitution -/

variable {values : List (String × String)}

/-- Every text is cut at its placeholders in some way, and substitution puts the values of the words in the places of these. -/
theorem exists_isOf (s : List Char) : ∃ cut : Cut, cut.IsOf s ∧
    ∀ values, substituteFrom values 0 s = cut.fill (valueOf values) := by
  induction hn : s.length using Nat.strongRecOn generalizing s with
  | ind n ih =>
    cases s with
    | nil =>
      refine ⟨⟨[], []⟩, ⟨rfl, fun word _ hinfix => ?_, by simp⟩, fun values => rfl⟩
      exact absurd (List.infix_nil.1 hinfix) (List.cons_ne_nil _ _)
    | cons c rest =>
      cases hread : readPlaceholder? (c :: rest) with
      | some word =>
        obtain ⟨hv, behind, hs⟩ := readPlaceholder?_eq_some_iff.1 hread
        have hlt : behind.length < n := by
          rw [← hn, hs, placeholder]
          simp
          omega
        obtain ⟨⟨first, more⟩, hcut, hfill⟩ := ih _ hlt behind rfl
        refine ⟨⟨[], (word, first) :: more⟩, ⟨?_, fun other _ hinfix => ?_, ?_⟩, fun values => ?_⟩
        · rw [Cut.fill_cons, hcut.text, hs, List.nil_append]
        · exact absurd (List.infix_nil.1 hinfix) (List.cons_ne_nil _ _)
        · exact List.forall_mem_cons.2 ⟨⟨hv, hcut.first⟩, hcut.more⟩
        · rw [hs, substituteFrom_placeholder values hv.1 hv.2, hfill, Cut.fill_cons, List.nil_append]
      | none =>
        have hlt : rest.length < n := hn ▸ Nat.lt_succ_self rest.length
        obtain ⟨⟨first, more⟩, hcut, hfill⟩ := ih _ hlt rest rfl
        have htext : Cut.fill placeholder ⟨c :: first, more⟩ = c :: rest := congrArg (c :: ·) hcut.text
        refine ⟨⟨c :: first, more⟩, ⟨htext, fun word hv hinfix => ?_, hcut.more⟩, fun values => ?_⟩
        · rcases List.infix_cons_iff.1 hinfix with ⟨middle, hmiddle⟩ | hinfix
          · -- A placeholder at the front of the piece would be read there.
            rw [← htext, Cut.fill, ← hmiddle, List.append_assoc, readPlaceholder?_eq_some_iff.2 ⟨hv, _, rfl⟩] at hread
            exact absurd hread (by simp)
          · exact hcut.first word hv hinfix
        · rw [substituteFrom, hread]
          exact congrArg (c :: ·) (hfill values)

/-- The placeholder of a piece stands in the text. -/
theorem Cut.IsOf.isInfix {cut : Cut} (h : cut.IsOf s) {piece : List Char × List Char} (hp : piece ∈ cut.more) :
    placeholder piece.1 <:+: s := by
  rw [← h.text, Cut.fill]
  have hpiece : placeholder piece.1 ++ piece.2 <:+: cut.more.flatMap fun piece => placeholder piece.1 ++ piece.2 :=
    List.infix_of_mem_flatten (List.mem_map_of_mem hp)
  exact ((List.prefix_append _ _).isInfix.trans hpiece).trans (List.suffix_append _ _).isInfix

/-- A cut whose words have no values is put together as it was. -/
theorem Cut.fill_valueOf_of_lookup {cut : Cut} (h : ∀ piece ∈ cut.more, values.lookup (String.ofList piece.1) = none) :
    cut.fill (valueOf values) = cut.fill placeholder := by
  have hpieces : cut.more.map (fun piece => valueOf values piece.1 ++ piece.2) =
      cut.more.map fun piece => placeholder piece.1 ++ piece.2 :=
    List.map_congr_left fun piece hp => by rw [valueOf, h piece hp]
  rw [Cut.fill, Cut.fill, List.flatMap_def, List.flatMap_def, hpieces]

/-- A text is cut in one way into placeholders and text without complete placeholders between them, and every placeholder that
stands in the text is one of those. Substitution gives the pieces in order, with the value of its word in the place of each
placeholder that has one, and the placeholder as it is written in the place of each other. So a text is unchanged when no
placeholder in it has a value. -/
theorem substitute_cut (text : String) : ∃ cut : Cut, cut.IsOf text.toList ∧
    (∀ other : Cut, other.IsOf text.toList → other = cut) ∧
    (∀ before word behind, IsVariable word → text.toList = before ++ (placeholder word ++ behind) →
      ∃ earlier literal later, cut.more = earlier ++ (word, literal) :: later ∧
        before = Cut.fill placeholder ⟨cut.first, earlier⟩) ∧
    ∀ values, (substitute values text).toList = cut.fill (fun word =>
        match values.lookup (String.ofList word) with
        | some value => value.toList
        | none => placeholder word) ∧
      ((∀ word, IsVariable word → placeholder word <:+: text.toList → values.lookup (String.ofList word) = none) →
        substitute values text = text) := by
  obtain ⟨cut, hcut, hfill⟩ := exists_isOf text.toList
  have hvalues : ∀ values, (substitute values text).toList = cut.fill (valueOf values) := fun values => by
    rw [substitute, String.toList_ofList, hfill]
  refine ⟨cut, hcut, fun other h => h.unique hcut, fun before word behind hv hs => hcut.exists_piece hv hs, fun values => ?_⟩
  refine ⟨hvalues values, fun hnone => ?_⟩
  have hpieces : ∀ piece ∈ cut.more, values.lookup (String.ofList piece.1) = none := fun piece hp =>
    hnone piece.1 (hcut.more piece hp).1 (hcut.isInfix hp)
  rw [← String.toList_inj, hvalues, Cut.fill_valueOf_of_lookup hpieces, hcut.text]

/-- Braces around and inside placeholders do not hide them, and values are not searched. -/
example : substitute [("name", "\x7b\x7btitle\x7d\x7d"), ("title", "\x7b")]
      "\x7b\x7b\x7bname\x7d\x7d\x7d \x7b\x7ba\x7b\x7bname\x7d\x7d \x7b\x7btitle\x7d\x7dtitle\x7d\x7d \x7b\x7bother\x7d\x7d" =
    "\x7b\x7b\x7btitle\x7d\x7d\x7d \x7b\x7ba\x7b\x7btitle\x7d\x7d \x7btitle\x7d\x7d \x7b\x7bother\x7d\x7d" := by
  decide +kernel

end SkillLint.Template
