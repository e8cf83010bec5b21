import SkillLint.Proofs.Json.Reader
import SkillLint.Proofs.Text.Trim

/-!
# JSON is read back

A value that has been written in JSON notation is read back, at whatever depth it stands and whatever follows it
(`readValue?_print`). A text in JSON notation therefore stands for one value, and for the value that it was written for.
-/

namespace SkillLint.Json

/-! ## Blanks -/

/-- Whether a text is what stands behind a value in a list, in an object or at the end: it starts with a comma or a line feed. -/
def IsBreak (s : List Char) : Prop :=
  s.head? = some ',' ∨ s.head? = some '\n'

theorem IsBreak.exists_cons {s : List Char} (h : IsBreak s) :
    ∃ c rest, s = c :: rest ∧ c.isDigit = false ∧ c ≠ '.' ∧ c ≠ 'e' ∧ c ≠ 'E' := by
  rcases h with h | h
  · obtain ⟨rest, rfl⟩ := List.head?_eq_some_iff.1 h
    exact ⟨',', rest, rfl, by decide, by decide, by decide, by decide⟩
  · obtain ⟨rest, rfl⟩ := List.head?_eq_some_iff.1 h
    exact ⟨'\n', rest, rfl, by decide, by decide, by decide, by decide⟩

theorem skipSpaces_cons {c : Char} (h : isSpace c = false) (s : List Char) : skipSpaces (c :: s) = c :: s := by
  simp [skipSpaces, h]

/-- The start of a line is skipped. -/
theorem skipSpaces_newLine {c : Char} (h : isSpace c = false) (depth : Nat) (s : List Char) :
    skipSpaces (newLine depth ++ c :: s) = c :: s := by
  refine Text.dropWhile_append_cons ?_ h
  intro d hd
  rcases List.mem_cons.1 hd with rfl | hd
  · rfl
  · rw [List.eq_of_mem_replicate hd]
    rfl

/-! ## Texts -/

theorem hexValue?_hexDigit : ∀ n < 16, hexValue? (hexDigit n) = some n := by
  decide

/-- A character that is written with its number is read back. -/
theorem readNumbered?_control {c : Char} (h : c.toNat < 32) (rest : List Char) :
    readNumbered? ('0' :: '0' :: hexDigit (c.toNat / 16) :: hexDigit (c.toNat % 16) :: rest) = some (c, rest) := by
  have hzero : hexValue? '0' = some 0 := by decide
  have hhigh := hexValue?_hexDigit (c.toNat / 16) (by omega)
  have hlow := hexValue?_hexDigit (c.toNat % 16) (by omega)
  have hnumber : ((16 * 0 + 0) * 16 + c.toNat / 16) * 16 + c.toNat % 16 = c.toNat := by omega
  have hunit : readUnit? ('0' :: '0' :: hexDigit (c.toNat / 16) :: hexDigit (c.toNat % 16) :: rest) =
      some (c.toNat, rest) := by
    simp only [readUnit?, hzero, hhigh, hlow, Option.bind_eq_bind, Option.bind_some, hnumber, Option.pure_def]
  simp only [readNumbered?, hunit, Option.bind_eq_bind, Option.bind_some]
  rw [if_pos (.inl (by omega)), Char.ofNat_toNat]
  rfl

/-- The characters that are written as a backslash and a letter. -/
def named : List Char :=
  ['"', '\\', '\n', '\r', '\t', '\x08', '\x0c']

/-- A character is written as a backslash and a letter that stands for it, with its number, or as it is. -/
theorem escapeChar_cases (c : Char) :
    (∃ letter, escapes.lookup letter = some c ∧ escapeChar c = ['\\', letter]) ∨
      (c.toNat < 32 ∧ escapeChar c = ['\\', 'u', '0', '0', hexDigit (c.toNat / 16), hexDigit (c.toNat % 16)]) ∨
      (c ≠ '"' ∧ c ≠ '\\' ∧ ¬c.toNat < 32 ∧ escapeChar c = [c]) := by
  by_cases hnamed : c ∈ named
  · simp only [named, List.mem_cons, List.not_mem_nil, or_false] at hnamed
    rcases hnamed with rfl | rfl | rfl | rfl | rfl | rfl | rfl
    · exact .inl ⟨'"', rfl, rfl⟩
    · exact .inl ⟨'\\', rfl, rfl⟩
    · exact .inl ⟨'n', rfl, rfl⟩
    · exact .inl ⟨'r', rfl, rfl⟩
    · exact .inl ⟨'t', rfl, rfl⟩
    · exact .inl ⟨'b', rfl, rfl⟩
    · exact .inl ⟨'f', rfl, rfl⟩
  · simp only [named, List.mem_cons, List.not_mem_nil, or_false, not_or] at hnamed
    obtain ⟨h1, h2, h3, h4, h5, h6, h7⟩ := hnamed
    refine .inr ?_
    unfold escapeChar
    rw [if_neg h1, if_neg h2, if_neg h3, if_neg h4, if_neg h5, if_neg h6, if_neg h7]
    by_cases h : c.toNat < 32
    · rw [if_pos h]
      exact .inl ⟨h, rfl⟩
    · rw [if_neg h]
      exact .inr ⟨h1, h2, h, rfl⟩

/-- A character is read back from how it stands in a text. -/
theorem readChar?_escapeChar (c : Char) (rest : List Char) : readChar? (escapeChar c ++ rest) = some (c, rest) := by
  rcases escapeChar_cases c with ⟨letter, hlookup, h⟩ | ⟨hcontrol, h⟩ | ⟨hquote, hbackslash, hcontrol, h⟩
  · have hu : letter ≠ 'u' := by
      rintro rfl
      exact absurd hlookup nofun
    rw [h]
    simp [readChar?, hlookup]
  · rw [h]
    exact readNumbered?_control hcontrol rest
  · rw [h]
    simp [readChar?, hquote, hbackslash, hcontrol]

/-- No character of a text stands there as a quote. -/
theorem head?_escapeChar (c : Char) (s : List Char) : (escapeChar c ++ s).head? ≠ some '"' := by
  rcases escapeChar_cases c with ⟨letter, -, h⟩ | ⟨-, h⟩ | ⟨hquote, -, -, h⟩
  · simp [h]
  · simp [h]
  · simp [h, hquote]

/-- The characters of a text are read back, up to the quote behind them. -/
theorem readChars?_escaped {chars : List Char} {fuel : Nat} (h : chars.length < fuel) (rest : List Char) :
    readChars? fuel (chars.flatMap escapeChar ++ '"' :: rest) = some (chars, rest) := by
  induction chars generalizing fuel with
  | nil =>
    cases fuel with
    | zero => exact absurd h (Nat.not_lt_zero _)
    | succ fuel => rfl
  | cons c chars ih =>
    cases fuel with
    | zero => exact absurd h (Nat.not_lt_zero _)
    | succ fuel =>
      have hmore := ih (Nat.lt_of_succ_lt_succ h)
      rw [List.flatMap_cons, List.append_assoc, readChars?, if_neg (head?_escapeChar c _)]
      simp only [readChar?_escapeChar, hmore, Option.bind_eq_bind, Option.bind_some, Option.pure_def]

/-- Escaping does not make a text shorter. -/
theorem length_le_escaped (chars : List Char) : chars.length ≤ (chars.flatMap escapeChar).length := by
  induction chars with
  | nil => exact Nat.le_refl _
  | cons c chars ih =>
    have hc : 1 ≤ (escapeChar c).length := by
      rcases escapeChar_cases c with ⟨letter, -, h⟩ | ⟨-, h⟩ | ⟨-, -, -, h⟩
      · simp [h]
      · simp [h]
      · simp [h]
    rw [List.flatMap_cons, List.length_append, List.length_cons]
    omega

/-- A quoted text is read back behind its first quote. -/
theorem readText?_quote (s : String) (rest : List Char) :
    readText? (s.toList.flatMap escapeChar ++ '"' :: rest) = some (s, rest) := by
  have hlength : s.toList.length < (s.toList.flatMap escapeChar ++ '"' :: rest).length := by
    have hle := length_le_escaped s.toList
    rw [List.length_append, List.length_cons]
    omega
  simp only [readText?, readChars?_escaped hlength, Option.bind_eq_bind, Option.bind_some, String.ofList_toList, Option.pure_def]

theorem quote_append (s rest : List Char) : quote s ++ rest = '"' :: (s.flatMap escapeChar ++ '"' :: rest) := by
  simp [quote]

/-! ## Numbers -/

/-- The decimal digits of a number start with a zero for zero alone. -/
theorem toDigits_of_head_zero {n : Nat} (h : (Nat.toDigits 10 n).head? = some '0') : Nat.toDigits 10 n = ['0'] := by
  induction n using Nat.base_induction 10 (by decide) with
  | single n hn =>
    rw [Nat.toDigits_of_lt_base hn] at h ⊢
    rw [Option.some.inj h]
  | digit n k hk hn ih =>
    obtain ⟨first, rest, hcons⟩ := List.exists_cons_of_ne_nil (Nat.toDigits_ne_nil : Nat.toDigits 10 n ≠ [])
    rw [← Nat.toDigits_append_toDigits (by decide) hn hk, hcons, List.cons_append, List.head?_cons] at h
    rw [hcons, List.head?_cons] at ih
    have hzero : Nat.ofDigitChars 10 (Nat.toDigits 10 n) 0 = 0 := by
      rw [hcons, ih h]
      rfl
    rw [Nat.ofDigitChars_ten_toDigits] at hzero
    omega

/-- A number is read back, unless it goes on behind its digits. -/
theorem readNumber?_digits (n : Nat) {rest : List Char} (h : IsBreak rest) :
    readNumber? (Nat.toDigits 10 n ++ rest) = some (number n, rest) := by
  obtain ⟨c, rest, rfl, hdigit, hpoint, hlower, hupper⟩ := h.exists_cons
  have hdigits : ∀ d ∈ Nat.toDigits 10 n, d.isDigit = true := fun d hd => Nat.isDigit_of_mem_toDigits (by decide) (by decide) hd
  have hzero : ¬((Nat.toDigits 10 n).head? = some '0' ∧ Nat.toDigits 10 n ≠ ['0']) := by
    rintro ⟨hhead, hne⟩
    exact hne (toDigits_of_head_zero hhead)
  have hgoesOn : ¬(Nat.toDigits 10 n = [] ∨ ((Nat.toDigits 10 n).head? = some '0' ∧ Nat.toDigits 10 n ≠ ['0']) ∨
      (c :: rest).head? = some '.' ∨ (c :: rest).head? = some 'e' ∨ (c :: rest).head? = some 'E') := by
    simp [hzero, hpoint, hlower, hupper]
  rw [readNumber?, Text.takeWhile_append_cons hdigits hdigit, Text.dropWhile_append_cons hdigits hdigit, if_neg hgoesOn,
    Nat.ofDigitChars_ten_toDigits]

/-! ## Elements with commas between them -/

/-- The elements behind the first one, each on a line of its own, and the bracket on the line behind them. -/
def printMore {α : Type} (write : α → List Char) (depth : Nat) (close : Char) (items : List α) : List Char :=
  items.flatMap (fun item => ',' :: (newLine (depth + 1) ++ write item)) ++ (newLine depth ++ [close])

/-- Whether an element can be told from the bracket that closes what it stands in. -/
def IsApart (close : Char) (s : List Char) : Prop :=
  ∃ c rest, s = c :: rest ∧ isSpace c = false ∧ c ≠ close

section

variable {α : Type} {element : Reader α} {write : α → List Char} {close : Char} {items : List α} {fuel : Nat}

/-- A break follows every element. -/
theorem isBreak_printMore (write : α → List Char) (depth : Nat) (close : Char) (items : List α) (rest : List Char) :
    IsBreak (printMore write depth close items ++ rest) := by
  cases items with
  | nil => exact .inr rfl
  | cons item more => exact .inl rfl

/-- Elements that are read back one by one are read back behind each other. -/
theorem readMore?_printMore (hclose : isSpace close = false) (hcomma : close ≠ ',') (hfuel : items.length < fuel)
    (hapart : ∀ item ∈ items, IsApart close (write item))
    (hread : ∀ item ∈ items, ∀ rest, IsBreak rest → element (write item ++ rest) = some (item, rest)) (depth : Nat)
    (rest : List Char) :
    readMore? element close fuel (printMore write depth close items ++ rest) = some (items, rest) := by
  induction items generalizing fuel with
  | nil =>
    cases fuel with
    | zero => exact absurd hfuel (Nat.not_lt_zero _)
    | succ fuel =>
      have hprint : printMore write depth close [] ++ rest = newLine depth ++ close :: rest := by
        simp [printMore]
      rw [hprint, readMore?, skipSpaces_newLine hclose]
      exact if_pos rfl
  | cons item more ih =>
    cases fuel with
    | zero => exact absurd hfuel (Nat.not_lt_zero _)
    | succ fuel =>
      have hmore := ih (Nat.lt_of_succ_lt_succ hfuel) (fun x hx => hapart x (List.mem_cons_of_mem _ hx))
        (fun x hx => hread x (List.mem_cons_of_mem _ hx))
      obtain ⟨c, written, hwrite, hc, -⟩ := hapart item List.mem_cons_self
      have hprint : printMore write depth close (item :: more) ++ rest =
          ',' :: (newLine (depth + 1) ++ (c :: (written ++ (printMore write depth close more ++ rest)))) := by
        simp [printMore, hwrite]
      have hfirst := hread item List.mem_cons_self _ (isBreak_printMore write depth close more rest)
      rw [hwrite, List.cons_append] at hfirst
      rw [hprint, readMore?, skipSpaces_cons (by decide)]
      simp only [if_neg hcomma.symm, if_true, skipSpaces_newLine hc, hfirst, hmore, Option.bind_eq_bind, Option.bind_some,
        Option.pure_def]

/-- Elements that are read back one by one are read back from between their brackets. -/
theorem readSequence?_printMore (hclose : isSpace close = false) (hcomma : close ≠ ',') {item : α}
    (hfuel : items.length < fuel) (hapart : ∀ x ∈ item :: items, IsApart close (write x))
    (hread : ∀ x ∈ item :: items, ∀ rest, IsBreak rest → element (write x ++ rest) = some (x, rest)) (depth : Nat)
    (rest : List Char) :
    readSequence? element close fuel (newLine (depth + 1) ++ (write item ++ (printMore write depth close items ++ rest))) =
      some (item :: items, rest) := by
  have hmore := readMore?_printMore hclose hcomma hfuel (fun x hx => hapart x (List.mem_cons_of_mem _ hx))
    (fun x hx => hread x (List.mem_cons_of_mem _ hx)) depth rest
  obtain ⟨c, written, hwrite, hc, hne⟩ := hapart item List.mem_cons_self
  have hfirst := hread item List.mem_cons_self _ (isBreak_printMore write depth close items rest)
  rw [hwrite, List.cons_append] at hfirst
  rw [hwrite, List.cons_append, readSequence?, skipSpaces_newLine hc]
  simp only [if_neg hne, hfirst, hmore, Option.bind_eq_bind, Option.bind_some, Option.pure_def]

end

/-! ## Values -/

/-- A member of an object, as it is written. -/
def printMember (depth : Nat) (member : String × Json) : List Char :=
  quote member.1.toList ++ ':' :: ' ' :: print depth member.2

theorem print_number (depth n : Nat) : print depth (number n) = Nat.toDigits 10 n := by
  have hprint : print depth (number n) = (toString n).toList := rfl
  rw [hprint, Nat.toString_eq_ofList_toDigits, String.toList_ofList]

theorem print_text (depth : Nat) (s : String) : print depth (text s) = quote s.toList := rfl

theorem print_list_cons (depth : Nat) (item : Json) (more : List Json) :
    print depth (list (item :: more)) =
      '[' :: (newLine (depth + 1) ++ (print (depth + 1) item ++ printMore (print (depth + 1)) depth ']' more)) := by
  have hitems : printItems (depth + 1) more = more.flatMap fun x => ',' :: (newLine (depth + 1) ++ print (depth + 1) x) := by
    induction more with
    | nil => simp [printItems]
    | cons x more ih => simp [printItems, ih]
  simp [print, printMore, hitems]

/-- An object that is not empty is written as its members behind each other. -/
theorem print_object_cons (depth : Nat) (member : String × Json) (more : List (String × Json)) :
    print depth (object (member :: more)) =
      '{' :: (newLine (depth + 1) ++ (printMember (depth + 1) member ++ printMore (printMember (depth + 1)) depth '}' more)) := by
  have hmembers : printMembers (depth + 1) more =
      more.flatMap fun m => ',' :: (newLine (depth + 1) ++ printMember (depth + 1) m) := by
    induction more with
    | nil => simp [printMembers]
    | cons m more ih =>
      obtain ⟨key, value⟩ := m
      simp [printMembers, printMember, ih]
  obtain ⟨key, value⟩ := member
  simp [print, printMore, printMember, hmembers]

/-- What a value starts with: a digit, or one of the characters that tell the kind of the value. -/
theorem exists_print_cons (depth : Nat) (value : Json) :
    ∃ c rest, print depth value = c :: rest ∧ (c ∈ ['t', 'f', '"', '[', '{'] ∨ c.isDigit = true) := by
  cases value with
  | bool value =>
    cases value with
    | false => exact ⟨'f', _, rfl, .inl (by decide)⟩
    | true => exact ⟨'t', _, rfl, .inl (by decide)⟩
  | number n =>
    obtain ⟨c, rest, hcons⟩ := List.exists_cons_of_ne_nil (Nat.toDigits_ne_nil : Nat.toDigits 10 n ≠ [])
    have hmem : c ∈ Nat.toDigits 10 n := hcons ▸ List.mem_cons_self
    refine ⟨c, rest, ?_, .inr (Nat.isDigit_of_mem_toDigits (by decide) (by decide) hmem)⟩
    rw [print_number, hcons]
  | text s => exact ⟨'"', _, rfl, .inl (by decide)⟩
  | list items =>
    cases items with
    | nil => exact ⟨'[', _, rfl, .inl (by decide)⟩
    | cons item more => exact ⟨'[', _, print_list_cons depth item more, .inl (by decide)⟩
  | object members =>
    cases members with
    | nil => exact ⟨'{', _, rfl, .inl (by decide)⟩
    | cons member more => exact ⟨'{', _, print_object_cons depth member more, .inl (by decide)⟩

/-- A value can be told from the bracket that closes a list or an object. -/
theorem isApart_print {close : Char} (h : close = ']' ∨ close = '}') (depth : Nat) (value : Json) :
    IsApart close (print depth value) := by
  obtain ⟨c, rest, hprint, hc⟩ := exists_print_cons depth value
  have hne : ∀ d, d.isDigit = false → d ∉ ['t', 'f', '"', '[', '{'] → c ≠ d := by
    rintro d hdigit hkind rfl
    rcases hc with hc | hc
    · exact hkind hc
    · rw [hdigit] at hc
      exact Bool.noConfusion hc
  have h1 := hne ' ' (by decide) (by decide)
  have h2 := hne '\n' (by decide) (by decide)
  have h3 := hne '\r' (by decide) (by decide)
  have h4 := hne '\t' (by decide) (by decide)
  refine ⟨c, rest, hprint, by simp [isSpace, h1, h2, h3, h4], ?_⟩
  rcases h with rfl | rfl
  · exact hne ']' (by decide) (by decide)
  · exact hne '}' (by decide) (by decide)

/-- A member is read back when its value is. -/
theorem readMember?_printMember {value : Reader Json} {depth : Nat} {member : String × Json}
    (h : ∀ rest, IsBreak rest → value (print depth member.2 ++ rest) = some (member.2, rest)) {rest : List Char}
    (hrest : IsBreak rest) : readMember? value (printMember depth member ++ rest) = some (member, rest) := by
  obtain ⟨key, v⟩ := member
  obtain ⟨c, written, hprint, hspace, -⟩ := isApart_print (.inl rfl) depth v
  have hvalue := h rest hrest
  have hcolon : isSpace ':' = false := by decide
  have hblank : skipSpaces (' ' :: c :: (written ++ rest)) = c :: (written ++ rest) := skipSpaces_cons hspace _
  rw [hprint, List.cons_append] at hvalue
  rw [printMember, List.append_assoc, quote_append, readMember?, hprint]
  simp only [List.cons_append, readText?_quote, Option.bind_eq_bind, Option.bind_some, skipSpaces_cons hcolon, hblank, hvalue,
    Option.pure_def]

/-- Elements are no longer than what they are written in. -/
theorem length_le_printMore {α : Type} (write : α → List Char) (depth : Nat) (close : Char) (items : List α) :
    items.length < (printMore write depth close items).length ∧
      ∀ item ∈ items, (write item).length < (printMore write depth close items).length := by
  induction items with
  | nil => simp [printMore]
  | cons item more ih =>
    have hprint : printMore write depth close (item :: more) =
        ',' :: (newLine (depth + 1) ++ (write item ++ printMore write depth close more)) := by
      simp [printMore]
    have hwhole : (printMore write depth close (item :: more)).length =
        (newLine (depth + 1)).length + ((write item).length + (printMore write depth close more).length) + 1 := by
      rw [hprint, List.length_cons, List.length_append, List.length_append]
    obtain ⟨hlength, hitems⟩ := ih
    rw [hwhole, List.length_cons]
    refine ⟨by omega, fun x hx => ?_⟩
    rcases List.mem_cons.1 hx with rfl | hx
    · omega
    · have hx := hitems x hx
      omega

/-- The items of a list are shorter than the list, and there are fewer of them than it has characters. -/
theorem length_lt_print_list (depth : Nat) (items : List Json) :
    items.length < (print depth (list items)).length ∧
      ∀ x ∈ items, (print (depth + 1) x).length < (print depth (list items)).length := by
  cases items with
  | nil => exact ⟨Nat.zero_lt_succ _, nofun⟩
  | cons item more =>
    obtain ⟨hlength, hmore⟩ := length_le_printMore (print (depth + 1)) depth ']' more
    simp only [print_list_cons, List.length_cons, List.length_append]
    refine ⟨by omega, fun x hx => ?_⟩
    rcases List.mem_cons.1 hx with rfl | hx
    · omega
    · have hx := hmore x hx
      omega

/-- The values in an object are shorter than the object, and there are fewer of them than it has characters. -/
theorem length_lt_print_object (depth : Nat) (members : List (String × Json)) :
    members.length < (print depth (object members)).length ∧
      ∀ x ∈ members, (print (depth + 1) x.2).length < (print depth (object members)).length := by
  cases members with
  | nil => exact ⟨Nat.zero_lt_succ _, nofun⟩
  | cons member more =>
    have hvalue : ∀ x, (print (depth + 1) x.2).length < (printMember (depth + 1) x).length := by
      intro x
      simp only [printMember, List.length_append, List.length_cons]
      omega
    obtain ⟨hlength, hmore⟩ := length_le_printMore (printMember (depth + 1)) depth '}' more
    simp only [print_object_cons, List.length_cons, List.length_append]
    refine ⟨by omega, fun x hx => ?_⟩
    have hx' := hvalue x
    rcases List.mem_cons.1 hx with rfl | hx
    · omega
    · have hx := hmore x hx
      omega

section

variable {fuel depth : Nat} {rest : List Char}

/-- The first character of a value tells its kind. -/
theorem readValue?_cons (c : Char) : readValue? (fuel + 1) (c :: rest) =
    if c = '"' then (readText? rest).map fun (s, rest) => (text s, rest)
    else if c = '[' then (readSequence? (readValue? fuel) ']' fuel rest).map fun (items, rest) => (list items, rest)
    else if c = '{' then
      (readSequence? (readMember? (readValue? fuel)) '}' fuel rest).map fun (members, rest) => (object members, rest)
    else if c.isDigit then readNumber? (c :: rest)
    else readWord? (c :: rest) := rfl

/-- A number is read back as a value. -/
theorem readValue?_number (n : Nat) (hrest : IsBreak rest) :
    readValue? (fuel + 1) (print depth (number n) ++ rest) = some (number n, rest) := by
  obtain ⟨c, digits, hcons⟩ := List.exists_cons_of_ne_nil (Nat.toDigits_ne_nil : Nat.toDigits 10 n ≠ [])
  have hdigit : c.isDigit = true :=
    Nat.isDigit_of_mem_toDigits (by decide) (by decide) (hcons ▸ List.mem_cons_self : c ∈ Nat.toDigits 10 n)
  have hne : ∀ d, d.isDigit = false → c ≠ d := by
    rintro d hd rfl
    rw [hd] at hdigit
    exact Bool.noConfusion hdigit
  have hnumber := readNumber?_digits n hrest
  rw [hcons, List.cons_append] at hnumber
  rw [print_number, hcons, List.cons_append, readValue?_cons, if_neg (hne _ (by decide)), if_neg (hne _ (by decide)),
    if_neg (hne _ (by decide)), if_pos hdigit, hnumber]

/-- A list is read back when its items are. -/
theorem readValue?_list {items : List Json} (hlength : items.length ≤ fuel)
    (hread : ∀ x ∈ items, ∀ rest, IsBreak rest → readValue? fuel (print (depth + 1) x ++ rest) = some (x, rest)) :
    readValue? (fuel + 1) (print depth (list items) ++ rest) = some (list items, rest) := by
  cases items with
  | nil => rfl
  | cons item more =>
    have hapart : ∀ x ∈ item :: more, IsApart ']' (print (depth + 1) x) := fun x _ => isApart_print (.inl rfl) _ x
    have hitems := readSequence?_printMore (by decide) (by decide) hlength hapart hread depth rest
    rw [print_list_cons, List.cons_append, List.append_assoc, List.append_assoc, readValue?_cons, if_neg (by decide), if_pos rfl, hitems]
    rfl

/-- An object is read back when its values are. -/
theorem readValue?_object {members : List (String × Json)} (hlength : members.length ≤ fuel)
    (hread : ∀ x ∈ members, ∀ rest, IsBreak rest → readValue? fuel (print (depth + 1) x.2 ++ rest) = some (x.2, rest)) :
    readValue? (fuel + 1) (print depth (object members) ++ rest) = some (object members, rest) := by
  cases members with
  | nil => rfl
  | cons member more =>
    have hapart : ∀ x ∈ member :: more, IsApart '}' (printMember (depth + 1) x) :=
      fun x _ => ⟨'"', _, rfl, by decide, by decide⟩
    have hmember : ∀ x ∈ member :: more, ∀ rest, IsBreak rest →
        readMember? (readValue? fuel) (printMember (depth + 1) x ++ rest) = some (x, rest) := by
      intro x hx rest hrest
      exact readMember?_printMember (hread x hx) hrest
    have hmembers := readSequence?_printMore (by decide) (by decide) hlength hapart hmember depth rest
    rw [print_object_cons, List.cons_append, List.append_assoc, List.append_assoc, readValue?_cons, if_neg (by decide),
      if_neg (by decide), if_pos rfl, hmembers]
    rfl

end

/-- A value that is written at some depth is read back, whatever stands behind the break that follows it. -/
theorem readValue?_print {fuel : Nat} {value : Json} {depth : Nat} (h : (print depth value).length < fuel) {rest : List Char}
    (hrest : IsBreak rest) : readValue? fuel (print depth value ++ rest) = some (value, rest) := by
  -- A list hands less fuel down to its items, which are shorter, so the induction is on the fuel.
  induction fuel generalizing value depth rest with
  | zero => exact absurd h (Nat.not_lt_zero _)
  | succ fuel ih =>
    cases value with
    | bool value =>
      cases value with
      | false => rfl
      | true => rfl
    | number n => exact readValue?_number n hrest
    | text s =>
      rw [print_text, quote_append, readValue?_cons, if_pos rfl, readText?_quote]
      rfl
    | list items =>
      obtain ⟨hlength, hitems⟩ := length_lt_print_list depth items
      refine readValue?_list (by omega) fun x hx rest hrest => ih ?_ hrest
      have hx := hitems x hx
      omega
    | object members =>
      obtain ⟨hlength, hmembers⟩ := length_lt_print_object depth members
      refine readValue?_object (by omega) fun x hx rest hrest => ih ?_ hrest
      have hx := hmembers x hx
      omega

/-- A document in JSON notation stands for the value that it was written for. -/
theorem ofText?_document (value : Json) : ofText? value.document = some value := by
  obtain ⟨c, rest, hprint, hspace, -⟩ := isApart_print (.inl rfl) 0 value
  have hskip : skipSpaces (print 0 value ++ ['\n']) = print 0 value ++ ['\n'] := by
    rw [hprint, List.cons_append]
    exact skipSpaces_cons hspace _
  have hread : readValue? ((print 0 value ++ ['\n']).length + 1) (print 0 value ++ ['\n']) = some (value, ['\n']) := by
    refine readValue?_print ?_ (.inr rfl)
    rw [List.length_append]
    omega
  simp only [ofText?, document, String.toList_ofList, hskip, hread, Option.bind_eq_bind, Option.bind_some]
  rfl

end SkillLint.Json
