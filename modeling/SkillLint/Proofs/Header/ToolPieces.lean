import Mathlib.Data.List.Forall2
import Mathlib.Data.List.Infix
import SkillLint.Proofs.Header.ToolTokens

/-!
# Where tool lists are split

A list of tools is split at the commas and blanks before which no parenthesis is open. Its entries are the texts between one such
place and the next, without blanks and quotes around them, as far as anything is left (`splitToolList_pieces`). The places are told
by the text before them alone, so this says what becomes of every text, also of one whose parentheses have no partners: a closing
one does not count then, and an opening one keeps all that follows in one entry.
-/

namespace SkillLint.Header

variable {depth : Nat} {s : List Char}

/-! ## Marks around a text -/

/-- What a text is without the pair of marks at its ends, of the given pairs, and the text itself when it has none of them. -/
inductive IsWithout (pairs : List (Char × Char)) (s inner : List Char) : Prop
  | enclosed {first last : Char} (hp : (first, last) ∈ pairs) (hs : s = first :: (inner ++ [last]))
  | bare (hs : s = inner) (h : ∀ first last t, (first, last) ∈ pairs → s ≠ first :: (t ++ [last]))

/-- The marks of a quoted text. -/
def quotes : List (Char × Char) :=
  [('"', '"'), ('\'', '\'')]

/-- The marks of a list in brackets. -/
def brackets : List (Char × Char) :=
  [('[', ']')]

/-- Unquoting takes off one pair of quotes. -/
theorem isWithout_unquote (s : List Char) : IsWithout quotes s (unquote s) := by
  rw [unquote]
  cases hd : between? '"' s with
  | some inner => exact .enclosed (by decide) (between?_eq_some_iff.1 hd)
  | none =>
    cases hs : between? '\'' s with
    | some inner => exact .enclosed (by decide) (between?_eq_some_iff.1 hs)
    | none =>
      refine .bare rfl fun first last t hp he => ?_
      simp only [quotes, List.mem_cons, Prod.mk.injEq, List.not_mem_nil, or_false] at hp
      rcases hp with ⟨rfl, rfl⟩ | ⟨rfl, rfl⟩
      · rw [between?_eq_some_iff.2 he] at hd
        exact absurd hd (by simp)
      · rw [between?_eq_some_iff.2 he] at hs
        exact absurd hs (by simp)

/-- Unbracketing takes off one pair of brackets. -/
theorem isWithout_unbracket (s : List Char) : IsWithout brackets s (unbracket s) := by
  by_cases h : ∃ inner, s = '[' :: (inner ++ [']'])
  · obtain ⟨inner, rfl⟩ := h
    rw [unbracket_brackets]
    exact .enclosed (by decide) rfl
  · have hs : unbracket s = s := by
      unfold unbracket
      split
      · rename_i rest
        refine if_neg fun hl => h ?_
        obtain ⟨inner, rfl⟩ := List.getLast?_eq_some_iff.1 hl
        exact ⟨inner, rfl⟩
      · rfl
    refine .bare hs.symm fun first last inner hp he => h ⟨inner, ?_⟩
    obtain ⟨rfl, rfl⟩ := Prod.mk.inj (List.mem_singleton.1 hp)
    exact he

/-! ## Places and pieces -/

theorem isSeparator_iff {c : Char} : isSeparator c = true ↔ c = ',' ∨ Text.isBlank c = true := by
  rw [isSeparator, Bool.or_eq_true, beq_iff_eq]

/-- Whether a text is split at a place, when `depth` parentheses are open before the text: a comma or a blank stands there, and no
parenthesis is open before it. -/
def IsSplitPlace (depth : Nat) (s : List Char) (i : Nat) : Prop :=
  (∃ c ∈ s[i]?, c = ',' ∨ Text.isBlank c = true) ∧ depthThrough depth (s.take i) = 0

instance (depth : Nat) (s : List Char) (i : Nat) : Decidable (IsSplitPlace depth s i) :=
  decidable_of_iff (s[i]?.any isSeparator = true ∧ depthThrough depth (s.take i) = 0)
    (by simp only [IsSplitPlace, Option.any_eq_true, isSeparator_iff, Option.mem_def])

/-- The places at which a text is split, in order. -/
def splitPlaces (depth : Nat) (s : List Char) : List Nat :=
  (List.range s.length).filter fun i => IsSplitPlace depth s i

/-- The pieces of a text from a place on that lie between the given places. -/
def piecesFrom (s : List Char) (start : Nat) : List Nat → List (List Char)
  | [] => [s.drop start]
  | i :: places => (s.take i).drop start :: piecesFrom s (i + 1) places

theorem isSplitPlace_zero {c : Char} : IsSplitPlace depth (c :: s) 0 ↔ depth = 0 ∧ isSeparator c = true := by
  simp [IsSplitPlace, depthThrough, isSeparator_iff, and_comm]

theorem isSplitPlace_succ {c : Char} {i : Nat} :
    IsSplitPlace depth (c :: s) (i + 1) ↔ IsSplitPlace (depthAfter depth c) s i := Iff.rfl

/-- The places of a text are its first one, if the text is split there, and those of the rest, each one further on. -/
theorem splitPlaces_cons (depth : Nat) (c : Char) (s : List Char) :
    splitPlaces depth (c :: s) =
      (if depth = 0 ∧ isSeparator c = true then [0] else []) ++ (splitPlaces (depthAfter depth c) s).map Nat.succ := by
  have hrest : (List.map Nat.succ (List.range s.length)).filter (fun i => decide (IsSplitPlace depth (c :: s) i)) =
      (splitPlaces (depthAfter depth c) s).map Nat.succ := by
    rw [List.filter_map, splitPlaces]
    exact congrArg _ (List.filter_congr fun i _ => decide_eq_decide.2 isSplitPlace_succ)
  rw [splitPlaces, List.length_cons, List.range_succ_eq_map, List.filter_cons, hrest]
  simp only [isSplitPlace_zero, decide_eq_true_eq]
  split <;> rfl

/-- Places one further on in a text with one more character before it have the same pieces between them. -/
theorem piecesFrom_cons_succ (c : Char) (s : List Char) (start : Nat) (places : List Nat) :
    piecesFrom (c :: s) (start + 1) (places.map Nat.succ) = piecesFrom s start places := by
  induction places generalizing start with
  | nil => rfl
  | cons i places ih => exact congrArg _ (ih (i + 1))

/-- One more character before a text is put before its first piece. -/
theorem piecesFrom_cons_zero (c : Char) (s : List Char) (places : List Nat) :
    piecesFrom (c :: s) 0 (places.map Nat.succ) = (piecesFrom s 0 places).modifyHead (c :: ·) := by
  cases places with
  | nil => rfl
  | cons i places => exact congrArg _ (piecesFrom_cons_succ c s (i + 1) places)

/-- A character that does not end a piece is put before the first piece of what follows. -/
theorem splitOutside_cons {c : Char} (h : ¬(depth = 0 ∧ isSeparator c = true)) (rest : List Char) :
    splitOutside depth (c :: rest) = (splitOutside (depthAfter depth c) rest).modifyHead (c :: ·) := by
  rw [splitOutside, if_neg h]
  obtain ⟨piece, more, hr⟩ := List.exists_cons_of_ne_nil (splitOutside_ne_nil (depthAfter depth c) rest)
  rw [hr]
  rfl

/-- Separators open and close nothing. -/
theorem depthAfter_of_isSeparator {c : Char} (h : isSeparator c = true) : depthAfter depth c = depth := by
  have hopen : c ≠ '(' := fun e => absurd (e ▸ h) (by decide)
  have hclose : c ≠ ')' := fun e => absurd (e ▸ h) (by decide)
  rw [depthAfter, if_neg hopen, if_neg hclose]

/-- A text is split into the pieces between its places. -/
theorem splitOutside_eq_piecesFrom (depth : Nat) (s : List Char) :
    splitOutside depth s = piecesFrom s 0 (splitPlaces depth s) := by
  induction s generalizing depth with
  | nil => rfl
  | cons c s ih =>
    rw [splitPlaces_cons]
    by_cases h : depth = 0 ∧ isSeparator c = true
    · obtain ⟨rfl, hc⟩ := h
      rw [if_pos ⟨rfl, hc⟩, splitOutside_separator hc, depthAfter_of_isSeparator hc, ih]
      exact congrArg _ (piecesFrom_cons_succ c s 0 _).symm
    · rw [if_neg h, splitOutside_cons h, ih, List.nil_append, piecesFrom_cons_zero]

/-! ## Guarded pieces -/

theorem isGuarded_nil (depth : Nat) : IsGuarded depth [] :=
  fun before c after e => absurd e.symm (List.append_ne_nil_of_right_ne_nil before (List.cons_ne_nil c after))

/-- A text is guarded when its front is, and the rest is behind that front. -/
theorem isGuarded_append_iff {t : List Char} :
    IsGuarded depth (s ++ t) ↔ IsGuarded depth s ∧ IsGuarded (depthThrough depth s) t := by
  induction s generalizing depth with
  | nil => exact ⟨fun h => ⟨isGuarded_nil depth, h⟩, fun h => h.2⟩
  | cons c s ih =>
    rw [List.cons_append, isGuarded_cons_iff, isGuarded_cons_iff, ih, and_assoc]
    rfl

/-- The first piece of a text is guarded where the text begins, and every other piece from where no parenthesis is open. -/
theorem isGuarded_of_splitOutside {piece : List Char} {more : List (List Char)} (h : splitOutside depth s = piece :: more) :
    IsGuarded depth piece ∧ ∀ p ∈ more, IsGuarded 0 p := by
  induction s generalizing depth piece more with
  | nil =>
    obtain ⟨rfl, rfl⟩ := List.cons.inj h
    exact ⟨isGuarded_nil depth, by simp⟩
  | cons c s ih =>
    obtain ⟨first, rest, hr⟩ := List.exists_cons_of_ne_nil (splitOutside_ne_nil (depthAfter depth c) s)
    obtain ⟨hfirst, hrest⟩ := ih hr
    by_cases hc : depth = 0 ∧ isSeparator c = true
    · -- No parenthesis is open behind the separator either, so the piece that begins there is guarded from no depth on.
      obtain ⟨rfl, hsep⟩ := hc
      rw [depthAfter_of_isSeparator hsep] at hr hfirst
      rw [splitOutside_separator hsep, hr] at h
      obtain ⟨rfl, rfl⟩ := List.cons.inj h
      exact ⟨isGuarded_nil 0, List.forall_mem_cons.2 ⟨hfirst, hrest⟩⟩
    · rw [splitOutside_cons hc, hr] at h
      obtain ⟨rfl, rfl⟩ := List.cons.inj h
      refine ⟨isGuarded_cons_iff.2 ⟨fun hsep => ?_, hfirst⟩, hrest⟩
      exact Nat.pos_of_ne_zero fun hd => hc ⟨hd, hsep⟩

/-! ## Entries of pieces -/

/-- Whether a character is taken off the ends of a piece: a blank or a quote. -/
def IsMargin (c : Char) : Prop :=
  Text.isBlank c = true ∨ c = '"' ∨ c = '\''

/-- Parentheses are not taken off. -/
theorem IsMargin.ne {c : Char} (h : IsMargin c) : c ≠ '(' ∧ c ≠ ')' := by
  rcases h with h | rfl | rfl
  · exact ⟨fun e => absurd (e ▸ h) (by decide), fun e => absurd (e ▸ h) (by decide)⟩
  · decide
  · decide

/-- A piece is its entry with blanks and quotes around it. -/
theorem exists_around_entryOf (piece : List Char) :
    ∃ pre post, piece = pre ++ (entryOf piece ++ post) ∧ (∀ c ∈ pre, IsMargin c) ∧ ∀ c ∈ post, IsMargin c := by
  obtain ⟨pre, post, hpiece, hpre, hpost⟩ := Text.exists_blanks_around_trim piece
  cases isWithout_unquote (Text.trim piece) with
  | bare hs _ =>
    rw [hs] at hpiece
    exact ⟨pre, post, hpiece, fun c hc => .inl (hpre c hc), fun c hc => .inl (hpost c hc)⟩
  | @enclosed first last hp hs =>
    have hmarks : IsMargin first ∧ IsMargin last := by
      simp only [quotes, List.mem_cons, Prod.mk.injEq, List.not_mem_nil, or_false] at hp
      rcases hp with ⟨rfl, rfl⟩ | ⟨rfl, rfl⟩
      · exact ⟨.inr (.inl rfl), .inr (.inl rfl)⟩
      · exact ⟨.inr (.inr rfl), .inr (.inr rfl)⟩
    refine ⟨pre ++ [first], last :: post, ?_, ?_, ?_⟩
    · rw [hs] at hpiece
      simpa [entryOf] using hpiece
    · exact List.forall_mem_append.2 ⟨fun c hc => .inl (hpre c hc), List.forall_mem_singleton.2 hmarks.1⟩
    · exact List.forall_mem_cons.2 ⟨hmarks.2, fun c hc => .inl (hpost c hc)⟩

/-- Text without parentheses opens and closes nothing. -/
theorem depthThrough_of_no_parenthesis (h : ∀ c ∈ s, c ≠ '(' ∧ c ≠ ')') : depthThrough depth s = depth := by
  induction s with
  | nil => rfl
  | cons c s ih =>
    obtain ⟨⟨hopen, hclose⟩, hs⟩ := List.forall_mem_cons.1 h
    have hc : depthAfter depth c = depth := by rw [depthAfter, if_neg hopen, if_neg hclose]
    rw [depthThrough, List.foldl_cons, hc]
    exact ih hs

/-- The entry of a guarded piece is guarded. -/
theorem isGuarded_entryOf {piece : List Char} (h : IsGuarded 0 piece) : IsGuarded 0 (entryOf piece) := by
  obtain ⟨pre, post, hpiece, hpre, -⟩ := exists_around_entryOf piece
  rw [hpiece] at h
  have hrest := (isGuarded_append_iff.1 h).2
  rw [depthThrough_of_no_parenthesis fun c hc => (hpre c hc).ne] at hrest
  exact (isGuarded_append_iff.1 hrest).1

/-! ## Open parentheses -/

/-- A character changes the number of open parentheses by what it opens and closes, but for one that has nothing to close. -/
theorem depthAfter_add_count {c : Char} (h : ¬(depth = 0 ∧ c = ')')) :
    depthAfter depth c + [c].count ')' = depth + [c].count '(' := by
  by_cases hopen : c = '('
  · subst hopen
    rfl
  · by_cases hclose : c = ')'
    · subst hclose
      exact Nat.sub_add_cancel (Nat.pos_of_ne_zero fun hd => h ⟨hd, rfl⟩)
    · rw [depthAfter, if_neg hopen, if_neg hclose, List.count_singleton, List.count_singleton, if_neg (by simpa using hclose),
        if_neg (by simpa using hopen)]

/-- Behind a text no fewer parentheses are open than were before it, with the opening ones in it and without the closing ones. -/
theorem add_count_le_depthThrough (depth : Nat) (s : List Char) :
    depth + s.count '(' ≤ depthThrough depth s + s.count ')' := by
  induction s generalizing depth with
  | nil => exact Nat.le_refl _
  | cons c s ih =>
    have hs := ih (depthAfter depth c)
    have hdepth : depthThrough depth (c :: s) = depthThrough (depthAfter depth c) s := rfl
    rw [hdepth, ← List.singleton_append, List.count_append, List.count_append]
    by_cases hc : depth = 0 ∧ c = ')'
    · obtain ⟨rfl, rfl⟩ := hc
      have hone : [')'].count '(' = 0 := rfl
      omega
    · have hchar := depthAfter_add_count hc
      omega

/-- So many parentheses are open behind a text as an end of it opens more than it closes, or as the whole text does with those that
were open before it. -/
theorem exists_suffix_of_depthThrough (depth : Nat) (s : List Char) :
    depthThrough depth s + s.count ')' = depth + s.count '(' ∨
      ∃ rest, rest <:+ s ∧ depthThrough depth s + rest.count ')' = rest.count '(' := by
  induction s generalizing depth with
  | nil => exact .inl rfl
  | cons c s ih =>
    have hdepth : depthThrough depth (c :: s) = depthThrough (depthAfter depth c) s := rfl
    rw [hdepth]
    rcases ih (depthAfter depth c) with hs | ⟨rest, hrest, hs⟩
    · by_cases hc : depth = 0 ∧ c = ')'
      · -- A closing parenthesis with nothing to close: what is open behind the text was opened behind it.
        obtain ⟨rfl, rfl⟩ := hc
        refine .inr ⟨s, List.suffix_cons _ _, ?_⟩
        rw [hs]
        exact Nat.zero_add _
      · have hchar := depthAfter_add_count hc
        left
        rw [← List.singleton_append, List.count_append, List.count_append]
        omega
    · exact .inr ⟨rest, hrest.trans (List.suffix_cons _ _), hs⟩

/-- No parenthesis is open behind a text when no end of it opens more parentheses than it closes, and only then. -/
theorem depthThrough_eq_zero_iff : depthThrough 0 s = 0 ↔ ∀ rest, rest <:+ s → rest.count '(' ≤ rest.count ')' := by
  constructor
  · rintro h rest ⟨front, rfl⟩
    have hrest := add_count_le_depthThrough (depthThrough 0 front) rest
    rw [depthThrough, List.foldl_append] at h
    rw [depthThrough, depthThrough, h] at hrest
    omega
  · intro h
    rcases exists_suffix_of_depthThrough 0 s with hs | ⟨rest, hrest, hs⟩
    · have hall := h s List.suffix_rfl
      omega
    · have hall := h rest hrest
      omega

/-! ## Argument lists -/

/-- Whether a parenthesis that is open before a text is still open behind each front of it: no front has more closing parentheses
than opening ones. -/
def StaysOpen (args : List Char) : Prop :=
  ∀ front, front <+: args → front.count ')' ≤ front.count '('

instance (args : List Char) : Decidable (StaysOpen args) :=
  decidable_of_iff (∀ front ∈ args.inits, front.count ')' ≤ front.count '(')
    (forall_congr' fun front => imp_congr_left (List.mem_inits front args))

/-- An argument list is guarded, wherever it stands. -/
theorem isGuarded_arguments {args : List Char} (h : StaysOpen args) (depth : Nat) : IsGuarded depth ('(' :: args) := by
  refine isGuarded_cons_iff.2 ⟨fun hc => absurd hc (by decide), fun before c after hs _ => ?_⟩
  have hcount := add_count_le_depthThrough (depthAfter depth '(') before
  have hopen := h before ⟨c :: after, hs.symm⟩
  have hdepth : depthAfter depth '(' = depth + 1 := rfl
  omega

/-- A text is not split in a guarded part. -/
theorem not_isSplitPlace_of_isGuarded {before part behind : List Char} (h : IsGuarded (depthThrough depth before) part) {i : Nat}
    (hi : i < part.length) : ¬IsSplitPlace depth (before ++ (part ++ behind)) (before.length + i) := by
  rintro ⟨⟨c, hc, hsep⟩, hdepth⟩
  have hpart : part = part.take i ++ c :: part.drop (i + 1) := by
    rw [List.getElem?_append_right (Nat.le_add_right _ _), Nat.add_sub_cancel_left, List.getElem?_append_left hi,
      List.getElem?_eq_getElem hi] at hc
    rw [← Option.some.inj hc, List.getElem_cons_drop, List.take_append_drop]
  have hfront : (before ++ (part ++ behind)).take (before.length + i) = before ++ part.take i := by
    rw [List.take_length_add_append, List.take_append_of_le_length (Nat.le_of_lt hi)]
  have hopen := h _ _ _ hpart (isSeparator_iff.2 hsep)
  rw [hfront, depthThrough, List.foldl_append] at hdepth
  rw [depthThrough, depthThrough, hdepth] at hopen
  exact Nat.lt_irrefl 0 hopen

/-- The first piece of a text belongs to one piece of the text with more before it. -/
theorem exists_splitOutside_append {before rest piece : List Char} {more : List (List Char)}
    (h : splitOutside (depthThrough depth before) rest = piece :: more) :
    ∃ earlier front, splitOutside depth (before ++ rest) = earlier ++ (front ++ piece) :: more := by
  induction before generalizing depth with
  | nil => exact ⟨[], [], h⟩
  | cons c before ih =>
    obtain ⟨earlier, front, hrest⟩ := ih h
    rw [List.cons_append]
    by_cases hc : depth = 0 ∧ isSeparator c = true
    · obtain ⟨rfl, hsep⟩ := hc
      rw [depthAfter_of_isSeparator hsep] at hrest
      exact ⟨[] :: earlier, front, by rw [splitOutside_separator hsep, hrest, List.cons_append]⟩
    · rw [splitOutside_cons hc, hrest]
      cases earlier with
      | nil => exact ⟨[], c :: front, rfl⟩
      | cons first earlier => exact ⟨(c :: first) :: earlier, front, rfl⟩

/-- An argument list in a text is a part of one of its pieces. -/
theorem exists_piece_of_arguments {args : List Char} (h : StaysOpen args) (depth : Nat) (before behind : List Char) :
    ∃ piece ∈ splitOutside depth (before ++ ('(' :: args ++ ')' :: behind)), '(' :: args ++ [')'] <:+: piece := by
  have hguarded : IsGuarded (depthThrough depth before) ('(' :: args ++ [')']) :=
    isGuarded_append_iff.2 ⟨isGuarded_arguments h _, isGuarded_cons_iff.2 ⟨fun hc => absurd hc (by decide), isGuarded_nil _⟩⟩
  obtain ⟨piece, more, hr⟩ := List.exists_cons_of_ne_nil
    (splitOutside_ne_nil (depthThrough (depthThrough depth before) ('(' :: args ++ [')'])) behind)
  have harguments := splitOutside_append hguarded hr
  rw [List.append_assoc, List.singleton_append] at harguments
  obtain ⟨earlier, front, hs⟩ := exists_splitOutside_append harguments
  exact ⟨_, by rw [hs]; simp, front, piece, List.append_assoc _ _ _⟩

/-- A part of a text with other text around it is a part of that text, if neither its first character stands before the text nor
its last one behind it. -/
theorem infix_of_around {part pre post : List Char} {first last : Char} (h : first :: part ++ [last] <:+: pre ++ (s ++ post))
    (hpre : first ∉ pre) (hpost : last ∉ post) : first :: part ++ [last] <:+: s := by
  have hbehind : first :: part ++ [last] <:+: s ++ post := by
    rcases List.infix_append_iff.1 h with h | h | ⟨left, right, he, hleft, hright⟩
    · exact absurd (h.subset (by simp)) hpre
    · exact h
    · cases left with
      | nil => exact he ▸ hright.isInfix
      | cons c left =>
        obtain rfl : first = c := (List.cons.inj he).1
        exact absurd (hleft.subset List.mem_cons_self) hpre
  rcases List.infix_append_iff.1 hbehind with h | h | ⟨left, right, he, hleft, hright⟩
  · exact h
  · exact absurd (h.subset (by simp)) hpost
  · rcases List.eq_nil_or_concat right with rfl | ⟨right, c, rfl⟩
    · rw [List.append_nil] at he
      exact he ▸ hleft.isInfix
    · rw [List.concat_eq_append, ← List.append_assoc] at he
      obtain rfl : last = c := (List.cons.inj (List.append_inj_right' he rfl)).1
      exact absurd (hright.subset (by simp)) hpost

/-- The argument lists in a piece are in its entry. -/
theorem arguments_infix_entryOf {args piece : List Char} (h : '(' :: args ++ [')'] <:+: piece) :
    '(' :: args ++ [')'] <:+: entryOf piece := by
  obtain ⟨pre, post, hpiece, hpre, hpost⟩ := exists_around_entryOf piece
  rw [hpiece] at h
  exact infix_of_around h (fun hm => (hpre _ hm).ne.1 rfl) fun hm => (hpost _ hm).ne.2 rfl

/-! ## Tool lists -/

/-- The text of a tool list without blanks around it and without a pair of square brackets. -/
def listText (value : String) : List Char :=
  unbracket (Text.trim value.toList)

/-- The tokens of a tool list are the pieces of its text as entries, those that are not empty. -/
theorem mem_splitToolList_iff {value token : String} :
    token ∈ splitToolList value ↔ token ≠ "" ∧ ∃ piece ∈ splitOutside 0 (listText value), token.toList = entryOf piece := by
  rw [splitToolList, toolEntries_eq, ← listText, entriesOf]
  simp only [List.mem_map, List.mem_filter, Bool.not_eq_true', List.isEmpty_eq_false_iff]
  constructor
  · rintro ⟨-, ⟨⟨piece, hp, rfl⟩, hne⟩, rfl⟩
    exact ⟨fun e => hne (String.ofList_eq_empty_iff.1 e), piece, hp, String.toList_ofList⟩
  · rintro ⟨hne, piece, hp, he⟩
    refine ⟨entryOf piece, ⟨⟨piece, hp, rfl⟩, fun e => hne (String.toList_eq_nil_iff.1 (he.trans e))⟩, ?_⟩
    rw [← he, String.ofList_toList]

theorem isGuarded_of_mem_splitOutside {piece : List Char} (h : piece ∈ splitOutside 0 s) : IsGuarded 0 piece := by
  obtain ⟨first, more, hs⟩ := List.exists_cons_of_ne_nil (splitOutside_ne_nil 0 s)
  obtain ⟨hfirst, hmore⟩ := isGuarded_of_splitOutside hs
  rw [hs] at h
  exact List.forall_mem_cons.2 ⟨hfirst, hmore⟩ piece h

/-- The argument lists in the text of a tool list are in its tokens. -/
theorem exists_token_of_arguments {value : String} {before args behind : List Char} (h : StaysOpen args)
    (hs : listText value = before ++ ('(' :: args ++ ')' :: behind)) :
    ∃ token ∈ splitToolList value, '(' :: args ++ [')'] <:+: token.toList := by
  obtain ⟨piece, hp, harguments⟩ := exists_piece_of_arguments h 0 before behind
  have hentry := arguments_infix_entryOf harguments
  rw [← hs] at hp
  refine ⟨String.ofList (entryOf piece), mem_splitToolList_iff.2 ⟨fun e => ?_, piece, hp, String.toList_ofList⟩, ?_⟩
  · rw [String.ofList_eq_empty_iff.1 e] at hentry
    exact absurd (List.infix_nil.1 hentry) (List.cons_ne_nil _ _)
  · rwa [String.toList_ofList]

/-- A tool list is the pieces of its text between the places at which the text is split, each without the blanks and then the pair of
quotes around it, empty ones left out; the text is the value without the blanks and then the pair of brackets around it. It is split at
the commas and blanks before which no parenthesis is open, that is, before which no end of the text opens more than it closes. So no
token is empty, and every comma and blank in a token stands inside its parentheses. From an opening parenthesis on, the text is not
split as long as the parentheses closed behind it are no more than those opened there, and if it is closed there at last, the whole
argument list is a part of one token. -/
theorem splitToolList_pieces (value : String) :
    IsWithout brackets (Text.trim value.toList) (listText value) ∧
    (∃ entries, List.Forall₂ (fun piece entry => IsWithout quotes (Text.trim piece) entry)
        (piecesFrom (listText value) 0 (splitPlaces 0 (listText value))) entries ∧
      (splitToolList value).map String.toList = entries.filter fun entry => !entry.isEmpty) ∧
    (∀ front, depthThrough 0 front = 0 ↔ ∀ rest, rest <:+ front → rest.count '(' ≤ rest.count ')') ∧
    (∀ token ∈ splitToolList value, token ≠ "" ∧ ∀ before c after, token.toList = before ++ c :: after →
      c = ',' ∨ Text.isBlank c = true → 0 < depthThrough 0 before) ∧
    ∀ before args behind, listText value = before ++ ('(' :: args ++ behind) → StaysOpen args →
      (∀ i ≤ args.length, before.length + i ∉ splitPlaces 0 (listText value)) ∧
      (behind.head? = some ')' → ∃ token ∈ splitToolList value, '(' :: args ++ [')'] <:+: token.toList) := by
  refine ⟨isWithout_unbracket _, ⟨(splitOutside 0 (listText value)).map entryOf, ?_, ?_⟩, fun front => depthThrough_eq_zero_iff,
    fun token ht => ?_, fun before args behind hs hopen => ⟨fun i hi hm => ?_, fun hclose => ?_⟩⟩
  · rw [← splitOutside_eq_piecesFrom, List.forall₂_map_right_iff]
    exact List.forall₂_same.2 fun piece _ => isWithout_unquote (Text.trim piece)
  · have hstring : String.toList ∘ String.ofList = id := funext fun _ => String.toList_ofList
    rw [splitToolList, List.map_map, hstring, List.map_id, toolEntries_eq, ← listText, entriesOf]
  · obtain ⟨hne, piece, hp, he⟩ := mem_splitToolList_iff.1 ht
    have hguarded := isGuarded_entryOf (isGuarded_of_mem_splitOutside hp)
    exact ⟨hne, fun before c after hs hc => hguarded before c after (he.symm.trans hs) (isSeparator_iff.2 hc)⟩
  · have hplace : IsSplitPlace 0 (listText value) (before.length + i) := by simpa using (List.mem_filter.1 hm).2
    rw [hs] at hplace
    exact not_isSplitPlace_of_isGuarded (isGuarded_arguments hopen _) (Nat.lt_succ_of_le hi) hplace
  · obtain ⟨rest, rfl⟩ := List.head?_eq_some_iff.1 hclose
    exact exists_token_of_arguments hopen hs

/-- A closing parenthesis without a partner splits nothing off, quotes may stand around an argument list, and an opening parenthesis
without a partner keeps the rest together. -/
theorem splitToolList_pieces_unbalanced :
    splitToolList " [Read, \"Bash(git (add):*, -A)\" Oops), 'Grep' x(a, b ]" =
      ["Read", "Bash(git (add):*, -A)", "Oops)", "Grep", "x(a, b"] ∧
    ∃ token ∈ splitToolList " [Read, \"Bash(git (add):*, -A)\" Oops), 'Grep' x(a, b ]",
      '(' :: "git (add):*, -A".toList ++ [')'] <:+: token.toList := by
  refine ⟨by decide, ?_⟩
  obtain ⟨-, -, -, -, harguments⟩ := splitToolList_pieces " [Read, \"Bash(git (add):*, -A)\" Oops), 'Grep' x(a, b ]"
  exact (harguments "Read, \"Bash".toList "git (add):*, -A".toList ")\" Oops), 'Grep' x(a, b ".toList
    (by decide) (by decide)).2 (by decide)

end SkillLint.Header
