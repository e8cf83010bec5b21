import SkillLint.Text.CharSet
import SkillLint.Yaml.Document

/-!
# Words, keys and nested mappings

How the lexer and the grammar read the plainest of texts: words of letters, digits and underscores, one behind each key, where the
last one is a value. A word is one scalar (`Lexer.step_word`). A word with a colon behind it opens a mapping, because the place where
it starts is still remembered when the colon comes (`Lexer.readAll_key`). The mappings end where the text ends
(`Lexer.readAll_value`). A key in a mapping in a mapping comes out as the events that one expects (`Document.ofText_nested`).
-/

namespace SkillLint.Yaml

/-- The letters and digits of ASCII and the underscore. -/
def isWordChar (c : Char) : Bool :=
  c.isAlphanum || c == '_'

/-- Whether a text is letters, digits and underscores, at least one of them. -/
structure IsWord (s : List Char) : Prop where
  ne_nil : s ≠ []
  chars : ∀ c ∈ s, isWordChar c = true

theorem IsWord.of_all {s : List Char} (hne : s ≠ []) (h : s.all isWordChar = true) : IsWord s :=
  ⟨hne, List.all_eq_true.1 h⟩

/-! ## Characters of a word -/

section Characters

variable {c : Char} (hc : isWordChar c = true)
include hc

theorem ne_of_isWordChar {d : Char} (hd : isWordChar d = false) : c ≠ d := by
  rintro rfl
  exact Bool.noConfusion (hc.symm.trans hd)

theorem beq_eq_false_of_isWordChar {d : Char} (hd : isWordChar d = false) : (c == d) = false :=
  beq_eq_false_iff_ne.2 (ne_of_isWordChar hc hd)

theorem not_mem_of_isWordChar {ds : List Char} (hds : ds.any isWordChar = false) : c ∉ ds :=
  fun h => List.any_eq_false.1 hds c h hc

theorem isSpace_of_isWordChar : isSpace c = false := by
  simp only [isSpace, beq_eq_false_of_isWordChar hc (d := ' ') rfl, beq_eq_false_of_isWordChar hc (d := '\t') rfl, Bool.or_self]

theorem isBreak_of_isWordChar : isBreak c = false := by
  have h {d : Char} (hd : isWordChar d = false) := beq_eq_false_of_isWordChar hc hd
  simp only [isBreak, h (d := '\n') rfl, h (d := '\r') rfl, h (d := '\u0085') rfl, h (d := '\u2028') rfl, h (d := '\u2029') rfl,
    Bool.or_self]

/-- A character of a word is in ASCII. -/
theorem toNat_of_isWordChar : 0x30 ≤ c.toNat ∧ c.toNat ≤ 0x7A := by
  rcases Bool.or_eq_true_iff.1 hc with hc | hc
  · rcases Bool.or_eq_true_iff.1 hc with hc | hc
    · have hrange := Text.toNat_of_isAlpha hc
      omega
    · have hrange := Text.toNat_of_isDigit hc
      omega
  · obtain rfl := beq_iff_eq.1 hc
    decide

theorem utf8Size_of_isWordChar : c.utf8Size = 1 := by
  have hle : c.toNat ≤ 127 := Nat.le_trans (toNat_of_isWordChar hc).2 (by decide)
  rw [Char.utf8Size_eq_one_iff]
  exact UInt32.le_iff_toNat_le.2 hle

theorem isPrintable_of_isWordChar : isPrintable c = true := by
  have hrange := toNat_of_isWordChar hc
  have hascii : (decide (0x20 ≤ c.toNat) && decide (c.toNat ≤ 0x7E)) = true := by
    rw [Bool.and_eq_true, decide_eq_true_eq, decide_eq_true_eq]
    omega
  simp only [isPrintable, hascii, Bool.or_true, Bool.true_or]

/-- A plain scalar can start with a character of a word. -/
theorem startsPlain_of_isWordChar (flow : Bool) (next : Option Char) : Lexer.startsPlain flow c next = true := by
  have hindicator : ['-', '?', ':', ',', '[', ']', '{', '}', '#', '&', '*', '!', '|', '>', '\'', '"', '%', '@', '`'].contains c = false := by
    rw [← Bool.not_eq_true, List.contains_iff_mem]
    exact not_mem_of_isWordChar hc (by decide)
  simp only [Lexer.startsPlain, isSpace_of_isWordChar hc, isBreak_of_isWordChar hc, hindicator, Bool.not_false, Bool.and_self,
    Bool.true_or]

end Characters

/-! ## Plain scalars -/

variable {word key rest : List Char} {line column offset : Nat}

/-- What may follow a word: nothing, or the colon behind a key. -/
def EndsWord (rest : List Char) : Prop :=
  rest = [] ∨ ∃ more, rest = ':' :: more ∧ endsToken more.head? = true

theorem plainWord_of_endsWord (h : EndsWord rest) : plainWord false rest = ([], true) := by
  rcases h with rfl | ⟨more, rfl, hmore⟩
  · rfl
  · simp [plainWord, hmore, isSpace, isBreak]

theorem plainWord_append (hword : ∀ c ∈ word, isWordChar c = true) (hrest : EndsWord rest) :
    plainWord false (word ++ rest) = (word, true) := by
  induction word with
  | nil => exact plainWord_of_endsWord hrest
  | cons c word ih =>
    have hc := hword c List.mem_cons_self
    simp only [List.cons_append, plainWord, isSpace_of_isWordChar hc, isBreak_of_isWordChar hc,
      beq_eq_false_of_isWordChar hc (d := ':') rfl, ih fun d hd => hword d (List.mem_cons_of_mem c hd)]
    rfl

/-- Characters of one byte each take as many bytes as there are. -/
theorem byteCount_eq_length {s : List Char} (h : ∀ c ∈ s, c.utf8Size = 1) : Cursor.byteCount s = s.length := by
  have hfold : ∀ n, s.foldl (fun n c => n + c.utf8Size) n = n + s.length := by
    induction s with
    | nil => exact fun _ => rfl
    | cons c s ih =>
      intro n
      rw [List.foldl_cons, h c List.mem_cons_self, ih fun d hd => h d (List.mem_cons_of_mem c hd), List.length_cons, Nat.add_assoc,
        Nat.add_comm 1]
  rw [Cursor.byteCount, hfold, Nat.zero_add]

theorem skip_append {front : List Char} (h : ∀ c ∈ front, c.utf8Size = 1) :
    (⟨front ++ rest, line, column, offset⟩ : Cursor).skip front.length =
      ⟨rest, line, column + front.length, offset + front.length⟩ := by
  rw [Cursor.skip, List.drop_left, List.take_left, byteCount_eq_length h]

theorem skip_word (hword : ∀ c ∈ word, isWordChar c = true) :
    (⟨word ++ rest, line, column, offset⟩ : Cursor).skip word.length =
      ⟨rest, line, column + word.length, offset + word.length⟩ :=
  skip_append fun c hc => utf8Size_of_isWordChar (hword c hc)

theorem skip_replicate (n : Nat) :
    (⟨List.replicate n ' ' ++ rest, line, column, offset⟩ : Cursor).skip n = ⟨rest, line, column + n, offset + n⟩ := by
  have hsize : ∀ c ∈ List.replicate n ' ', c.utf8Size = 1 := by
    intro c hc
    rw [List.eq_of_mem_replicate hc]
    rfl
  simpa only [List.length_replicate] using skip_append hsize

/-- No marker stands where another character does. -/
theorem atMarker_eq_false {c : Cursor} {d mark : Char} (h : c.peek = some d) (hd : d ≠ mark) : c.atMarker mark = false := by
  cases hrest : c.rest with
  | nil => exact absurd h (by simp [Cursor.peek, hrest])
  | cons e rest =>
    obtain rfl : e = d := by simpa [Cursor.peek, hrest] using h
    have htake : ((e :: rest).take 3 == [mark, mark, mark]) = false := by
      rw [beq_eq_false_iff_ne]
      exact fun heq => hd (List.cons.inj heq).1
    rw [Cursor.atMarker, hrest, htake, Bool.and_false, Bool.false_and]

/-- A word is read as a plain scalar on one line. -/
theorem readPlain_word (hword : IsWord word) (hrest : EndsWord rest) (fuel limit : Nat) :
    readPlain (fuel + 1) false limit ⟨word ++ rest, line, column, offset⟩ =
      .ok (⟨rest, line, column + word.length, offset + word.length⟩, word, false) := by
  obtain ⟨c, chars, rfl⟩ := List.exists_cons_of_ne_nil hword.ne_nil
  have hc := hword.chars c List.mem_cons_self
  have hpeek : (⟨c :: chars ++ rest, line, column, offset⟩ : Cursor).peek = some c := rfl
  have hmarker : (⟨c :: chars ++ rest, line, column, offset⟩ : Cursor).atDocumentMarker = false := by
    rw [Cursor.atDocumentMarker, atMarker_eq_false hpeek (ne_of_isWordChar hc rfl),
      atMarker_eq_false hpeek (ne_of_isWordChar hc rfl), Bool.or_self]
  have hcomment : (some c == some '#') = false := beq_eq_false_of_isWordChar hc rfl
  have hafter : ∀ column offset,
      (⟨rest, line, column, offset⟩ : Cursor).peek.any (fun d => isSpace d || isBreak d) = false := by
    rcases hrest with rfl | ⟨more, rfl, -⟩ <;> exact fun _ _ => rfl
  rw [readPlain, readPlainFrom]
  simp only [hmarker, hpeek, hcomment, plainWord_append hword.chars hrest, skip_word hword.chars, hafter]
  simp [Bind.bind, Except.bind, Gap.text, pure, Except.pure]

namespace Lexer

variable {l : Lexer} {fuel count : Nat} {indent : Int} {outer : List Int} {keyAllowed : Bool} {tokens : List (Token × Mark)}

/-! ## Between the words -/

theorem toNextToken_end (h : l.cursor.rest = []) : toNextToken (fuel + 1) l = l := by
  obtain ⟨⟨rest, line, column, offset⟩, tokens, count, indent, outer, keyAllowed, depth, places⟩ := l
  obtain rfl : rest = [] := h
  simp [toNextToken, Cursor.peek, Cursor.skipWhile, Cursor.skip, Cursor.skipComment, Cursor.byteCount]

/-- Spaces are passed over. -/
theorem toNextToken_char {n : Nat} {c : Char} (hc : c ∉ [' ', '\t', '#', '\uFEFF']) (hbreak : isBreak c = false)
    (hcursor : l.cursor = ⟨List.replicate n ' ' ++ c :: rest, line, column, offset⟩) :
    toNextToken (fuel + 1) l = { l with cursor := ⟨c :: rest, line, column + n, offset + n⟩ } := by
  simp only [List.mem_cons, List.not_mem_nil, or_false, not_or] at hc
  obtain ⟨hspace, htab, hhash, horder⟩ := hc
  have hmark : (l.cursor.peek == some '\uFEFF') = false := by
    rw [Cursor.peek, hcursor]
    cases n with
    | zero => exact beq_eq_false_iff_ne.2 fun h => horder (Option.some.inj h)
    | succ n => rfl
  have hskip (tabs : Bool) : l.cursor.skipWhile (fun d => d == ' ' || (tabs && d == '\t')) =
      ⟨c :: rest, line, column + n, offset + n⟩ := by
    have htake : (List.replicate n ' ' ++ c :: rest).takeWhile (fun d => d == ' ' || (tabs && d == '\t')) = List.replicate n ' ' := by
      rw [List.takeWhile_append_of_pos (by simp), List.takeWhile_cons_of_neg (by simp [hspace, htab]), List.append_nil]
    rw [Cursor.skipWhile, hcursor, htake, List.length_replicate, skip_replicate]
  have hcomment : (⟨c :: rest, line, column + n, offset + n⟩ : Cursor).skipComment = ⟨c :: rest, line, column + n, offset + n⟩ := by
    rw [Cursor.skipComment]
    exact if_neg fun h => hhash (Option.some.inj h)
  have hnone : (⟨c :: rest, line, column + n, offset + n⟩ : Cursor).peek.any isBreak = false := hbreak
  simp only [toNextToken, hmark, Bool.and_false, Bool.false_eq_true, if_false, hskip, hcomment, hnone]

theorem toNextToken_word {n : Nat} (hword : IsWord word)
    (hcursor : l.cursor = ⟨List.replicate n ' ' ++ (word ++ rest), line, column, offset⟩) :
    toNextToken (fuel + 1) l = { l with cursor := ⟨word ++ rest, line, column + n, offset + n⟩ } := by
  obtain ⟨c, chars, rfl⟩ := List.exists_cons_of_ne_nil hword.ne_nil
  have hc := hword.chars c List.mem_cons_self
  exact toNextToken_char (not_mem_of_isWordChar hc (by decide)) (isBreak_of_isWordChar hc) hcursor

/-- Outside flow collections a key may start on the next line. -/
theorem toNextToken_line {n : Nat} (hword : IsWord word) (hdepth : l.depth = 0)
    (hcursor : l.cursor = ⟨'\n' :: (List.replicate n ' ' ++ (word ++ rest)), line, column, offset⟩) :
    toNextToken (fuel + 2) l = { l with cursor := ⟨word ++ rest, line + 1, n, offset + 1 + n⟩, keyAllowed := true } := by
  have hmark : (l.cursor.peek == some '\uFEFF') = false := by
    rw [hcursor]
    rfl
  have hskip (tabs : Bool) : l.cursor.skipWhile (fun d => d == ' ' || (tabs && d == '\t')) = l.cursor := by
    rw [Cursor.skipWhile, hcursor, List.takeWhile_cons_of_neg (by simp)]
    rfl
  have hcomment : l.cursor.skipComment = l.cursor := by
    rw [Cursor.skipComment, hcursor, if_neg (by simp [Cursor.peek])]
  have hbreak : l.cursor.peek.any isBreak = true := by
    rw [hcursor]
    rfl
  have hline : l.cursor.newLine = ⟨List.replicate n ' ' ++ (word ++ rest), line + 1, 0, offset + 1⟩ := by
    rw [hcursor]
    rfl
  rw [toNextToken]
  simp only [hmark, Bool.and_false, Bool.false_eq_true, if_false, hskip, hcomment, hbreak, if_true]
  rw [toNextToken_word hword hline, inFlow, hdepth, Nat.zero_add]
  rfl

theorem closeBlocks_of_le {column : Int} (h : l.indent ≤ column) : l.closeBlocks column = l := by
  rw [closeBlocks]
  split
  · rfl
  · cases l.outer with
    | nil => rfl
    | cons next more => rw [closeDeeper, if_neg (Int.not_lt.2 h)]

/-- Places that are not too far behind stay. -/
theorem dropStale_of_forall (h : ∀ p ∈ l.places, isStale l.cursor p = false) : l.dropStale = .ok l := by
  have hfind : (l.places.find? fun p => p.required && isStale l.cursor p) = none :=
    List.find?_eq_none.2 fun p hp => by rw [h p hp, Bool.and_false]; exact Bool.false_ne_true
  have hfilter : (l.places.filter fun p => !isStale l.cursor p) = l.places :=
    List.filter_eq_self.2 fun p hp => by rw [h p hp]; rfl
  rw [dropStale, hfind, hfilter]

/-! ## Words and colons -/

theorem readAt_of_isWordChar {c : Char} {next : Option Char} (hc : isWordChar c = true) (hpeek : l.cursor.peek = some c) :
    l.readAt fuel c next = l.readPlain fuel := by
  have h {d : Char} (hd : isWordChar d = false) := beq_eq_false_of_isWordChar hc hd
  simp only [readAt, atMarker_eq_false hpeek (ne_of_isWordChar hc (d := '-') rfl),
    atMarker_eq_false hpeek (ne_of_isWordChar hc (d := '.') rfl), startsPlain_of_isWordChar hc, h (d := '%') rfl, h (d := '[') rfl,
    h (d := '\x7b') rfl, h (d := ']') rfl, h (d := '\x7d') rfl, h (d := ',') rfl, h (d := '-') rfl, h (d := '?') rfl,
    h (d := ':') rfl, h (d := '*') rfl, h (d := '&') rfl, h (d := '!') rfl, h (d := '|') rfl, h (d := '>') rfl, h (d := '\'') rfl,
    h (d := '"') rfl, Bool.and_false, Bool.false_and, Bool.false_eq_true, if_false, if_true]

/-- A word outside flow collections is one token. Where a key may start, the place where the word starts is remembered, if the
word is short enough. -/
theorem step_word (hword : IsWord word) (hrest : EndsWord rest) (hshort : keyAllowed = true → word.length ≤ 1024)
    (hindent : indent ≤ column)
    (hnext : toNextToken (fuel + 1) l = ⟨⟨word ++ rest, line, column, offset⟩, tokens, count, indent, outer, keyAllowed, 0, []⟩) :
    step (fuel + 1) l =
      .ok (⟨⟨rest, line, column + word.length, offset + word.length⟩, (.scalar .plain word, ⟨line, column⟩) :: tokens, count + 1,
        indent, outer, false, 0, if keyAllowed then [⟨0, indent == column, count, ⟨line, column⟩, offset⟩] else []⟩, true) := by
  obtain ⟨c, chars, rfl⟩ := List.exists_cons_of_ne_nil hword.ne_nil
  have hpeek : (⟨c :: chars ++ rest, line, column, offset⟩ : Cursor).peek = some c := rfl
  rw [step, hnext, dropStale_of_forall (by simp)]
  simp only [Bind.bind, Except.bind]
  rw [closeBlocks_of_le (by exact hindent)]
  simp only [hpeek]
  rw [readAt_of_isWordChar (hword.chars c List.mem_cons_self) hpeek, readPlain, markPlace]
  cases keyAllowed with
  | false =>
    simp only [Bool.not_false, if_true, Bind.bind, Except.bind, inFlow, Nat.lt_irrefl, decide_false, readPlain_word hword hrest, pure,
      Except.pure, push]
    rw [dropStale_of_forall (by simp)]
    rfl
  | true =>
    simp only [Bool.not_true, Bool.false_eq_true, if_false, dropPlace, innermost?, Except.map, Bind.bind, Except.bind, inFlow,
      Nat.lt_irrefl, decide_false, readPlain_word hword hrest, pure, Except.pure, push]
    rw [dropStale_of_forall]
    · rfl
    · simpa [isStale, Cursor.mark] using hshort

/-- The tokens of a key and its colon that open a mapping, the last one first. -/
def keyTokens (key : List Char) (place : Mark) : List (Token × Mark) :=
  [(.value, ⟨place.line, place.column + key.length⟩), (.scalar .plain key, place), (.key, place), (.blockMappingStart, place)]

/-- A colon makes a key of what starts at the place that is remembered, and the key opens a mapping if it stands deeper than the
collection around it. -/
theorem readValue_place {required : Bool} {start first : Nat} (hindent : indent < start) :
    readValue ⟨⟨':' :: rest, line, start + key.length, offset⟩, (.scalar .plain key, ⟨line, start⟩) :: tokens, count + 1, indent, outer,
        false, 0, [⟨0, required, count, ⟨line, start⟩, first⟩]⟩ =
      .ok ⟨⟨rest, line, start + key.length + 1, offset + 1⟩, keyTokens key ⟨line, start⟩ ++ tokens, count + 4, start, indent :: outer,
        false, 0, []⟩ := by
  have hkey : count + 1 - count = 1 := by omega
  have hblock : count + 1 + 1 - count = 2 := by omega
  have hskip : (⟨':' :: rest, line, start + key.length, offset⟩ : Cursor).skip 1 =
      ⟨rest, line, start + key.length + 1, offset + 1⟩ := rfl
  simp [readValue, innermost?, insert, hkey, hblock, openBlock, inFlow, hindent, push, hskip, Cursor.mark, keyTokens]

/-- The step at the colon behind a key. -/
theorem step_colon {required : Bool} {start first : Nat} (hrest : endsToken rest.head? = true) (hfirst : offset ≤ first + 1024)
    (hindent : indent < start) :
    step (fuel + 1) ⟨⟨':' :: rest, line, start + key.length, offset⟩, (.scalar .plain key, ⟨line, start⟩) :: tokens, count + 1, indent,
        outer, false, 0, [⟨0, required, count, ⟨line, start⟩, first⟩]⟩ =
      .ok (⟨⟨rest, line, start + key.length + 1, offset + 1⟩, keyTokens key ⟨line, start⟩ ++ tokens, count + 4, start, indent :: outer,
        false, 0, []⟩, true) := by
  have hnext (l : Lexer) (hl : l.cursor = ⟨':' :: rest, line, start + key.length, offset⟩) : toNextToken (fuel + 1) l = l := by
    rw [toNextToken_char (n := 0) (c := ':') (by decide) rfl hl, Nat.add_zero, Nat.add_zero, ← hl]
  have hstale : isStale ⟨':' :: rest, line, start + key.length, offset⟩ ⟨0, required, count, ⟨line, start⟩, first⟩ = false := by
    simp [isStale, hfirst]
  have hpeek : (⟨':' :: rest, line, start + key.length, offset⟩ : Cursor).peek = some ':' := rfl
  have hbehind : (⟨':' :: rest, line, start + key.length, offset⟩ : Cursor).peekAt 1 = rest.head? := by
    cases rest <;> rfl
  have hread (l : Lexer) (hl : l.cursor.peek = some ':') : l.readAt (fuel + 1) ':' rest.head? = l.readValue := by
    rw [readAt, atMarker_eq_false hl (by decide), atMarker_eq_false hl (by decide), hrest]
    simp
  rw [step, hnext _ rfl, dropStale_of_forall (by simpa using hstale)]
  simp only [Bind.bind, Except.bind]
  rw [closeBlocks_of_le (by simp; omega)]
  simp only [hpeek, hbehind]
  rw [hread _ hpeek, readValue_place hindent]
  simp only [pure, Except.pure]
  rw [dropStale_of_forall (by simp)]

/-- A key that stands deeper than what is around it opens a mapping. -/
theorem readAll_key (hkey : IsWord key) (hshort : key.length ≤ 1024) (hrest : endsToken rest.head? = true) (hindent : indent < column)
    (hnext : toNextToken (fuel + 2) l =
      ⟨⟨key ++ ':' :: rest, line, column, offset⟩, tokens, count, indent, outer, true, 0, []⟩) :
    readAll (fuel + 3) l = readAll (fuel + 1) ⟨⟨rest, line, column + key.length + 1, offset + key.length + 1⟩,
      keyTokens key ⟨line, column⟩ ++ tokens, count + 4, column, indent :: outer, false, 0, []⟩ := by
  rw [readAll, step_word hkey (.inr ⟨rest, rfl, hrest⟩) (fun _ => hshort) (Int.le_of_lt hindent) hnext]
  simp only [if_true]
  rw [readAll, step_colon hrest (by omega) hindent]

/-- A word at the end of a text is the value of the key before it, and ends the three mappings around it. -/
theorem readAll_value (hword : IsWord word) (hcolumn : 4 < column)
    (hnext : toNextToken (fuel + 2) l =
      ⟨⟨word ++ [], line, column, offset⟩, tokens, count, 4, [2, 0, -1], false, 0, []⟩) :
    readAll (fuel + 3) l = (Tokens.done ⟨line + 1, 0⟩).prepend ((.blockEnd, ⟨line + 1, 0⟩) :: (.blockEnd, ⟨line + 1, 0⟩) ::
      (.blockEnd, ⟨line + 1, 0⟩) :: (.scalar .plain word, ⟨line, column⟩) :: tokens) := by
  have hindent : (4 : Int) ≤ column := by omega
  have hpeek : (⟨[], line, column + word.length, offset + word.length⟩ : Cursor).peek = none := rfl
  rw [readAll, step_word hword (.inl rfl) Bool.noConfusion hindent hnext]
  simp only [Bool.false_eq_true, if_false]
  rw [readAll, step, toNextToken_end rfl, dropStale_of_forall (by simp)]
  simp only [Bind.bind, Except.bind]
  rw [closeBlocks_of_le (by simp; omega)]
  simp [hpeek, readEnd, hword.ne_nil, closeBlocks, closeDeeper, inFlow, dropPlace, innermost?, push, Cursor.mark, pure, Except.pure,
    dropStale]

end Lexer

/-! ## Three keys and a value -/

/-- A text with one key on each of three lines, each deeper than the one before it, and a value behind the last key. -/
def nested (outer inner key value : List Char) : List Char :=
  outer ++ ':' :: '\n' :: (List.replicate 2 ' ' ++ (inner ++ ':' :: '\n' :: (List.replicate 4 ' ' ++ (key ++ ':' ::
    (List.replicate 1 ' ' ++ (value ++ []))))))

theorem append_eq_nested (outer inner key value : List Char) :
    outer ++ ':' :: '\n' :: (List.replicate 2 ' ' ++ (inner ++ ':' :: '\n' :: List.replicate 4 ' ')) ++ key ++
        ':' :: List.replicate 1 ' ' ++ value = nested outer inner key value := by
  simp only [nested, List.append_assoc, List.cons_append, List.append_nil]

/-- The tokens of such a text. -/
def nestedTokens (outer inner key value : List Char) : Tokens :=
  (Tokens.done ⟨3, 0⟩).prepend ((.blockEnd, ⟨3, 0⟩) :: (.blockEnd, ⟨3, 0⟩) :: (.blockEnd, ⟨3, 0⟩) ::
    (.scalar .plain value, ⟨2, 4 + key.length + 1 + 1⟩) :: (Lexer.keyTokens key ⟨2, 4⟩ ++ (Lexer.keyTokens inner ⟨1, 2⟩ ++
      (Lexer.keyTokens outer ⟨0, 0⟩ ++ []))))

/-- The events of such a text: a mapping in a mapping in a mapping. -/
def nestedEvents (outer inner key value : List Char) : Node :=
  [(⟨0, 0⟩, .mappingStart none), (⟨0, 0⟩, .scalar none none .plain outer), (⟨1, 2⟩, .mappingStart none),
    (⟨1, 2⟩, .scalar none none .plain inner), (⟨2, 4⟩, .mappingStart none), (⟨2, 4⟩, .scalar none none .plain key),
    (⟨2, 4 + key.length + 1 + 1⟩, .scalar none none .plain value), (⟨3, 0⟩, .mappingEnd), (⟨3, 0⟩, .mappingEnd),
    (⟨3, 0⟩, .mappingEnd)]

section Nested

variable {outer inner key value : List Char} (houter : IsWord outer) (hinner : IsWord inner) (hkey : IsWord key)
  (hvalue : IsWord value)
include houter hinner hkey hvalue

/-- The lexer reads three keys and a value, a key at a time. -/
theorem Tokens.ofText_nested (houterLength : outer.length ≤ 1024) (hinnerLength : inner.length ≤ 1024)
    (hkeyLength : key.length ≤ 1024) : Tokens.ofText (nested outer inner key value) = nestedTokens outer inner key value := by
  obtain ⟨fuel, hfuel⟩ : ∃ fuel, (nested outer inner key value).length + 2 = fuel + 9 := by
    refine Nat.exists_eq_add_of_le' ?_
    simp only [nested, List.length_append, List.length_cons, List.length_replicate]
    omega
  rw [Tokens.ofText, hfuel, nested]
  rw [Lexer.readAll_key houter houterLength rfl (Int.negSucc_lt_zero 0) (Lexer.toNextToken_word (n := 0) houter rfl)]
  rw [Lexer.readAll_key hinner hinnerLength rfl (show (0 : Int) < 2 by decide) (Lexer.toNextToken_line (n := 2) hinner rfl rfl)]
  rw [Lexer.readAll_key hkey hkeyLength rfl (show (2 : Int) < 4 by decide) (Lexer.toNextToken_line (n := 4) hkey rfl rfl)]
  rw [Lexer.readAll_value hvalue (show 4 < 4 + key.length + 1 + 1 by omega) (Lexer.toNextToken_word (n := 1) hvalue rfl)]
  rfl

theorem isPrintable_nested : (nested outer inner key value).all isPrintable = true := by
  have hchars {word : List Char} (hword : IsWord word) : word.all isPrintable = true :=
    List.all_eq_true.2 fun c hc => isPrintable_of_isWordChar (hword.chars c hc)
  simp only [nested, List.all_append, List.all_cons, hchars houter, hchars hinner, hchars hkey, hchars hvalue]
  decide

end Nested

namespace Event

variable {handles : Handles} {fuel : Nat} {flush : Bool} {place mark : Mark} {text key : List Char} {rest : Tokens} {read : Events}

theorem readNode_scalar : readNode handles (fuel + 1) true flush (.next (.scalar .plain text) mark rest) read =
    .one mark (.scalar none none .plain text) rest read := by
  cases hmark : rest.mark <;>
    simp [readNode, readFront, Tokens.mark, readProperties, Properties.tagName, Bind.bind, Except.bind, pure, Except.pure]

/-- A mapping is read as its first key, the value behind that, and the members after it. -/
theorem readNode_key (hrest : rest.startsWith isMappingToken = false) :
    readNode handles (fuel + 3) true flush
        (.next .blockMappingStart place (.next .key place (.next (.scalar .plain key) place (.next .value mark rest)))) read =
      (readNode handles fuel true true rest ((place, .scalar none none .plain key) :: (place, .mappingStart none) :: read)).andThen
        (readMembers handles (fuel + 1) place) := by
  have hkey : (Tokens.next (.scalar .plain key) place (.next .value mark rest)).startsWith isMappingToken = false := rfl
  simp only [readNode, readFront, Tokens.mark, readProperties, Properties.tagName, Bind.bind, Except.bind, pure, Except.pure]
  rw [if_true, readMembers, hkey]
  simp only [Bool.false_eq_true, if_false, readNode_scalar, Reading.one, Reading.andThen, readValue, hrest]

/-- The grammar reads three keys and a value, a mapping at a time. -/
theorem readDocument_nested (outer inner key value : List Char) :
    readDocument (nestedTokens outer inner key value) =
      ⟨[(⟨3, 0⟩, .mappingEnd), (⟨3, 0⟩, .mappingEnd), (⟨3, 0⟩, .mappingEnd),
        (⟨2, 4 + key.length + 1 + 1⟩, .scalar none none .plain value), (⟨2, 4⟩, .scalar none none .plain key),
        (⟨2, 4⟩, .mappingStart none), (⟨1, 2⟩, .scalar none none .plain inner), (⟨1, 2⟩, .mappingStart none),
        (⟨0, 0⟩, .scalar none none .plain outer), (⟨0, 0⟩, .mappingStart none)], .ok (.done ⟨3, 0⟩)⟩ := by
  rw [readDocument]
  simp only [nestedTokens, Tokens.prepend, Lexer.keyTokens, List.cons_append, List.nil_append, List.foldl_cons, List.foldl_nil,
    Tokens.length, Tokens.isDone, Tokens.startsWith, Tokens.head?, Option.any_some, startsDocument, Bool.false_eq_true, if_false]
  rw [readNode_key rfl, readNode_key rfl, readNode_key rfl, readNode_scalar]
  simp only [Reading.one, Reading.andThen, readMembers, Tokens.mark, Except.map]

end Event

namespace Document

/-- A text with three keys and a value is the document with these events, and nothing is wrong with it. -/
theorem ofText_nested {outer inner key value : List Char} (houter : IsWord outer) (hinner : IsWord inner) (hkey : IsWord key)
    (hvalue : IsWord value) (houterLength : outer.length ≤ 1024) (hinnerLength : inner.length ≤ 1024) (hkeyLength : key.length ≤ 1024) :
    Document.ofText (nested outer inner key value) = { events := nestedEvents outer inner key value } := by
  rw [ofText, if_pos (isPrintable_nested houter hinner hkey hvalue),
    Tokens.ofText_nested houter hinner hkey hvalue houterLength hinnerLength hkeyLength, ofTokens, Event.readDocument_nested]
  rfl

/-- Whether a node of a mapping is the last one in it. -/
def IsLast (node : Node) : Prop :=
  siblings (node.length + 1) node = [node]

/-- A mapping with one member, whose key is that of a field, is what the field makes of the value. -/
theorem members_single {σ : Type} {d : Document} {expected : String} {fields : List (Field σ)} {first : σ} {route : Route}
    {mark place : Mark} {key : List Char} {value : Node} {field : Field σ} (hlast : IsLast value)
    (hfield : fields.find? (fun field => field.key == String.ofList key) = some field) :
    d.members expected fields first route ((mark, .mappingStart none) :: (place, .scalar none none .plain key) :: value) =
      field.read (.key (String.ofList key) :: route) value first := by
  have hmembers : siblings (value.length + 2) ((place, .scalar none none .plain key) :: value) =
      [(place, .scalar none none .plain key) :: value, value] := by
    have hbehind : behind 0 ((place, .scalar none none .plain key) :: value) = value := by simp [behind]
    rw [siblings, hbehind, hlast]
    all_goals simp
  have hread : d.readMember fields route mark ([], first) ((place, .scalar none none .plain key) :: value) value =
      (field.read (.key (String.ofList key) :: route) value first).map fun last => ([String.ofList key], last) := by
    simp only [readMember, text, follow, Bind.bind, Except.bind, hfield, List.contains_nil, Bool.false_eq_true, if_false, stepTo]
    cases field.read (.key (String.ofList key) :: route) value first <;> rfl
  simp only [members, follow, List.length_cons, hmembers, pairs, List.foldlM_cons, List.foldlM_nil, hread]
  cases field.read (.key (String.ofList key) :: route) value first <;> rfl

end Document

end SkillLint.Yaml
