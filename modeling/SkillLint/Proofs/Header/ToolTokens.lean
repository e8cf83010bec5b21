import SkillLint.Header.Line
import SkillLint.Proofs.Text.Join

/-!
# Lists of tool tokens

A token of a tool list is a text that the splitter leaves in one piece: its commas and blanks stand inside parentheses, and
every parenthesis it opens is closed at its end. Tokens joined by commas, with or without square brackets around the whole,
are split into the same tokens again, and so is a single token with a blank before it.
-/

namespace SkillLint.Header

/-- The number of open parentheses after a text, when `depth` are open before it; there are never fewer than none. -/
def depthThrough (depth : Nat) (s : List Char) : Nat :=
  s.foldl depthAfter depth

/-- Whether every separator in a text stands inside parentheses, when `depth` are open before the text. -/
def IsGuarded (depth : Nat) (s : List Char) : Prop :=
  ∀ before c after, s = before ++ c :: after → isSeparator c = true → 0 < depthThrough depth before

/-- What a text must be to be one entry of a tool list, in every spelling of the list. -/
structure IsToolToken (token : List Char) : Prop where
  not_empty : token ≠ []
  one_line : '\n' ∉ token
  not_bracketed : token.head? ≠ some '['
  not_quoted : ∀ quote ∈ ['"', '\''], ¬(2 ≤ token.length ∧ token.head? = some quote ∧ token.getLast? = some quote)
  guarded : IsGuarded 0 token
  balanced : depthThrough 0 token = 0

/-- Tokens with a comma and a space between them. -/
def joinTokens (ts : List (List Char)) : List Char :=
  [',', ' '].intercalate ts

theorem joinTokens_cons_cons (t u : List Char) (ts : List (List Char)) :
    joinTokens (t :: u :: ts) = t ++ ',' :: ' ' :: joinTokens (u :: ts) := by
  simp [joinTokens]

/-- A text is guarded when its first character is, and the rest is behind that character. -/
theorem isGuarded_cons_iff {depth : Nat} {c : Char} {s : List Char} :
    IsGuarded depth (c :: s) ↔ (isSeparator c = true → 0 < depth) ∧ IsGuarded (depthAfter depth c) s := by
  constructor
  · intro h
    exact ⟨fun hc => h [] c s rfl hc, fun before d after e hd => h (c :: before) d after (by rw [e]; rfl) hd⟩
  · rintro ⟨hc, hs⟩ before d after e hd
    cases before with
    | nil =>
      obtain ⟨rfl, -⟩ := List.cons.inj e
      exact hc hd
    | cons b before =>
      obtain ⟨rfl, e'⟩ := List.cons.inj e
      exact hs before d after e' hd

instance decidableIsGuarded : (depth : Nat) → (s : List Char) → Decidable (IsGuarded depth s)
  | _, [] => isTrue fun before c after e => by simp at e
  | depth, c :: s =>
    have := decidableIsGuarded (depthAfter depth c) s
    decidable_of_iff _ isGuarded_cons_iff.symm

instance (token : List Char) : Decidable (IsToolToken token) :=
  have : Decidable (∀ quote ∈ ['"', '\''],
      ¬(2 ≤ token.length ∧ token.head? = some quote ∧ token.getLast? = some quote)) :=
    List.decidableBAll _ _
  decidable_of_iff
    (token ≠ [] ∧ '\n' ∉ token ∧ token.head? ≠ some '['
      ∧ (∀ quote ∈ ['"', '\''], ¬(2 ≤ token.length ∧ token.head? = some quote ∧ token.getLast? = some quote))
      ∧ IsGuarded 0 token ∧ depthThrough 0 token = 0)
    ⟨fun ⟨h1, h2, h3, h4, h5, h6⟩ => ⟨h1, h2, h3, h4, h5, h6⟩, fun ⟨h1, h2, h3, h4, h5, h6⟩ => ⟨h1, h2, h3, h4, h5, h6⟩⟩

/-! ## Splitting -/

/-- A text puts itself before the first piece of what follows as long as its separators are guarded. -/
theorem splitOutside_append {depth : Nat} {s : List Char} (h : IsGuarded depth s) {rest piece : List Char}
    {more : List (List Char)} (hr : splitOutside (depthThrough depth s) rest = piece :: more) :
    splitOutside depth (s ++ rest) = (s ++ piece) :: more := by
  induction s generalizing depth with
  | nil => exact hr
  | cons c s ih =>
    have hc : ¬(depth = 0 ∧ isSeparator c = true) := by
      rintro ⟨rfl, hs⟩
      exact Nat.lt_irrefl 0 (h [] c s rfl hs)
    rw [List.cons_append, splitOutside, if_neg hc, ih (isGuarded_cons_iff.1 h).2 hr]
    rfl

theorem splitOutside_of_guarded {s : List Char} (h : IsGuarded 0 s) : splitOutside 0 s = [s] := by
  have hr : splitOutside (depthThrough 0 s) [] = [[]] := by rw [splitOutside]
  have := splitOutside_append h hr
  rwa [List.append_nil] at this

theorem splitOutside_separator {c : Char} (h : isSeparator c = true) (rest : List Char) :
    splitOutside 0 (c :: rest) = [] :: splitOutside 0 rest := by
  rw [splitOutside, if_pos ⟨rfl, h⟩]

namespace IsToolToken

variable {t : List Char}

/-- A token does not start with a blank: no parenthesis is open there. -/
theorem head_not_blank (h : IsToolToken t) : ∀ c ∈ t.head?, Text.isBlank c = false := by
  intro c hc
  obtain ⟨rest, rfl⟩ := List.head?_eq_some_iff.1 hc
  rw [Bool.eq_false_iff]
  intro hb
  exact Nat.lt_irrefl 0 (h.guarded [] c rest rfl (by rw [isSeparator, hb, Bool.or_true]))

/-- A token does not end with a blank: the parentheses are closed there, and the blank would not have closed them. -/
theorem getLast_not_blank (h : IsToolToken t) : ∀ c ∈ t.getLast?, Text.isBlank c = false := by
  intro c hc
  obtain ⟨before, rfl⟩ := List.getLast?_eq_some_iff.1 hc
  rw [Bool.eq_false_iff]
  intro hb
  have hopen : 0 < depthThrough 0 before := h.guarded before c [] rfl (by rw [isSeparator, hb, Bool.or_true])
  have h1 : c ≠ '(' := fun e => by subst e; exact absurd hb (by decide)
  have h2 : c ≠ ')' := fun e => by subst e; exact absurd hb (by decide)
  have hclosed := h.balanced
  rw [depthThrough, List.foldl_append, List.foldl_cons, List.foldl_nil, depthAfter, if_neg h1, if_neg h2] at hclosed
  rw [depthThrough, hclosed] at hopen
  exact Nat.lt_irrefl 0 hopen

/-- A token has no pair of quotes around it. -/
theorem between?_eq_none (h : IsToolToken t) {quote : Char} (hq : quote ∈ ['"', '\'']) : between? quote t = none := by
  cases hb : between? quote t with
  | none => rfl
  | some inner =>
    rw [between?_eq_some_iff] at hb
    refine absurd ⟨?_, ?_, ?_⟩ (h.not_quoted quote hq)
    · simp [hb]
    · simp [hb]
    · rw [hb, List.getLast?_cons_of_ne_nil (by simp), List.getLast?_concat]

theorem entryOf_eq (h : IsToolToken t) : entryOf t = t := by
  rw [entryOf, Text.trim_of_ends h.head_not_blank h.getLast_not_blank, unquote, h.between?_eq_none (by simp),
    h.between?_eq_none (by simp)]
  rfl

theorem splitOutside_comma (h : IsToolToken t) (rest : List Char) :
    splitOutside 0 (t ++ ',' :: ' ' :: rest) = t :: [] :: splitOutside 0 rest := by
  have hr : splitOutside (depthThrough 0 t) (',' :: ' ' :: rest) = [] :: [] :: splitOutside 0 rest := by
    rw [h.balanced, splitOutside_separator (by decide), splitOutside_separator (by decide)]
  rw [splitOutside_append h.guarded hr, List.append_nil]

end IsToolToken

/-- The pieces of a text as entries, empty ones left out. -/
def entriesOf (pieces : List (List Char)) : List (List Char) :=
  (pieces.map entryOf).filter fun entry => !entry.isEmpty

theorem entriesOf_cons {t : List Char} (h : IsToolToken t) (pieces : List (List Char)) :
    entriesOf (t :: pieces) = t :: entriesOf pieces := by
  have hne : t.isEmpty = false := List.isEmpty_eq_false_iff.2 h.not_empty
  rw [entriesOf, List.map_cons, h.entryOf_eq, List.filter_cons_of_pos (by rw [hne]; rfl), entriesOf]

theorem entriesOf_nil_cons (pieces : List (List Char)) : entriesOf ([] :: pieces) = entriesOf pieces := by
  rw [entriesOf, List.map_cons, List.filter_cons_of_neg (by decide), entriesOf]

/-- Joined tokens are split into the tokens again. -/
theorem entriesOf_splitOutside_joinTokens {ts : List (List Char)} (h : ∀ t ∈ ts, IsToolToken t) :
    entriesOf (splitOutside 0 (joinTokens ts)) = ts := by
  induction ts with
  | nil => exact entriesOf_nil_cons []
  | cons t ts ih =>
    have ht : IsToolToken t := h t List.mem_cons_self
    cases ts with
    | nil =>
      rw [joinTokens, List.intercalate_singleton, splitOutside_of_guarded ht.guarded, entriesOf_cons ht]
      rfl
    | cons u ts =>
      rw [joinTokens_cons_cons, ht.splitOutside_comma, entriesOf_cons ht, entriesOf_nil_cons,
        ih fun v hv => h v (List.mem_cons_of_mem _ hv)]

/-! ## The spellings of a list -/

theorem head?_joinTokens {t : List Char} (h : IsToolToken t) (ts : List (List Char)) :
    (joinTokens (t :: ts)).head? = t.head? :=
  Text.head?_intercalate_cons _ h.not_empty ts

/-- Joined tokens end with a character that is not blank. -/
theorem getLast_joinTokens_not_blank {ts : List (List Char)} (h : ∀ t ∈ ts, IsToolToken t) :
    ∀ c ∈ (joinTokens ts).getLast?, Text.isBlank c = false :=
  Text.getLast_intercalate _ (fun t ht => (h t ht).not_empty) fun t ht => (h t ht).getLast_not_blank

/-- Joined tokens do not start with a blank. -/
theorem head_joinTokens_not_blank {ts : List (List Char)} (h : ∀ t ∈ ts, IsToolToken t) :
    ∀ c ∈ (joinTokens ts).head?, Text.isBlank c = false := by
  cases ts with
  | nil => simp [joinTokens]
  | cons t ts =>
    rw [head?_joinTokens (h t List.mem_cons_self)]
    exact (h t List.mem_cons_self).head_not_blank

/-- Text that is not in square brackets is left as it is. -/
theorem unbracket_of_head {s : List Char} (h : s.head? ≠ some '[') : unbracket s = s := by
  unfold unbracket
  split
  · exact absurd rfl h
  · rfl

theorem unbracket_brackets (s : List Char) : unbracket ('[' :: (s ++ [']'])) = s := by
  simp [unbracket]

theorem toolEntries_eq (value : List Char) :
    toolEntries value = entriesOf (splitOutside 0 (unbracket (Text.trim value))) := rfl

/-- An inline list of tokens is read back. -/
theorem toolEntries_joinTokens {ts : List (List Char)} (h : ∀ t ∈ ts, IsToolToken t) : toolEntries (joinTokens ts) = ts := by
  have hb : (joinTokens ts).head? ≠ some '[' := by
    cases ts with
    | nil => simp [joinTokens]
    | cons t ts =>
      rw [head?_joinTokens (h t List.mem_cons_self)]
      exact (h t List.mem_cons_self).not_bracketed
  rw [toolEntries_eq, Text.trim_of_ends (head_joinTokens_not_blank h) (getLast_joinTokens_not_blank h), unbracket_of_head hb,
    entriesOf_splitOutside_joinTokens h]

theorem toolEntries_brackets {ts : List (List Char)} (h : ∀ t ∈ ts, IsToolToken t) :
    toolEntries ('[' :: (joinTokens ts ++ [']'])) = ts := by
  rw [toolEntries_eq, Text.trim_enclosed (by decide) (by decide), unbracket_brackets,
    entriesOf_splitOutside_joinTokens h]

theorem toolEntries_space {t : List Char} (h : IsToolToken t) : toolEntries (' ' :: t) = [t] := by
  rw [toolEntries_eq, Text.trim_cons_of_blank (by decide), Text.trim_of_ends h.head_not_blank h.getLast_not_blank,
    unbracket_of_head h.not_bracketed, splitOutside_of_guarded h.guarded, entriesOf_cons h]
  rfl

end SkillLint.Header
