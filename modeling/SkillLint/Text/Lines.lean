/-!
# Lines and blanks

How a text is cut into lines, and what counts as blank in it.
-/

namespace SkillLint.Text

/-!
## Lines of a text

A line ends at a line feed, which may follow a carriage return; neither belongs to the line. A text that ends in a line
feed has no further line after it, and the empty text has no lines. Joining puts line feeds between lines only, so a
text without carriage returns is recovered from its lines up to a final line feed.
-/

/-- A character put before the first of some lines, or alone on a line of its own when there is none. -/
def consLine (c : Char) : List (List Char) → List (List Char)
  | [] => [[c]]
  | line :: more => (c :: line) :: more

/-- The lines of a text, without their line ends. -/
def lines : List Char → List (List Char)
  | [] => []
  | c :: rest =>
    if c = '\n' then [] :: lines rest
    else if c = '\r' ∧ rest.head? = some '\n' then lines rest
    else consLine c (lines rest)

/-- Lines joined by line feeds. -/
def joinLines (ls : List (List Char)) : List Char :=
  ['\n'].intercalate ls

/-- The line, counted from zero, that holds the character at a position of a text. -/
def lineAt (s : List Char) (position : Nat) : Nat :=
  (s.take position).count '\n'

theorem lines_newline (rest : List Char) : lines ('\n' :: rest) = [] :: lines rest := by
  simp [lines]

theorem lines_return_newline (rest : List Char) : lines ('\r' :: '\n' :: rest) = [] :: lines rest := by
  simp [lines]

/-- A text without line feeds is one line. -/
theorem lines_of_no_newline {s : List Char} (hs : s ≠ []) (h : '\n' ∉ s) : lines s = [s] := by
  induction s with
  | nil => exact absurd rfl hs
  | cons c s ih =>
    have hc : c ≠ '\n' := fun e => h (by simp [e])
    have hs' : '\n' ∉ s := fun e => h (List.mem_cons_of_mem _ e)
    have hr : s.head? ≠ some '\n' := fun e => hs' (List.mem_of_mem_head? e)
    cases s with
    | nil => simp [lines, hc, consLine]
    | cons d s =>
      rw [lines, if_neg hc, if_neg (fun e => hr e.2), ih (by simp) hs']
      rfl

/-!
## Blank characters, trimming and words

A character is blank when it has the Unicode property White_Space. Trimming drops blanks from the ends of a text, and
the words of a text are its longest blank-free pieces.
-/

/-- The characters with the Unicode property White_Space. -/
def isBlank (c : Char) : Bool :=
  let n := c.toNat
  (0x9 ≤ n && n ≤ 0xD) || n == 0x20 || n == 0x85 || n == 0xA0 || n == 0x1680 || (0x2000 ≤ n && n ≤ 0x200A)
    || n == 0x2028 || n == 0x2029 || n == 0x202F || n == 0x205F || n == 0x3000

/-- A text without its leading blanks. -/
def trimStart (s : List Char) : List Char :=
  s.dropWhile isBlank

/-- A text without the trailing characters that satisfy `p`. -/
def dropTrailing (p : Char → Bool) (s : List Char) : List Char :=
  (s.reverse.dropWhile p).reverse

/-- A text without its trailing blanks. -/
def trimEnd (s : List Char) : List Char :=
  dropTrailing isBlank s

/-- A text without its leading and trailing blanks. -/
def trim (s : List Char) : List Char :=
  trimEnd (trimStart s)

/-- A text of blanks only, the empty text included. -/
def isBlankText (s : List Char) : Bool :=
  (trim s).isEmpty

/-- The longest blank-free pieces of a text, in order. -/
def words (s : List Char) : List (List Char) :=
  (s.splitOnP isBlank).filter fun w => !w.isEmpty

/-- A text whose words are joined by single spaces, without leading or trailing blanks. -/
def flatten (s : List Char) : List Char :=
  [' '].intercalate (words s)

/-- The result of trimming does not start with a blank. -/
theorem head_trimStart_not_blank (s : List Char) : ∀ c ∈ (trimStart s).head?, isBlank c = false := by
  induction s with
  | nil => simp [trimStart]
  | cons d r ih =>
    cases hd : isBlank d with
    | true => simpa [trimStart, List.dropWhile, hd] using ih
    | false => simp [trimStart, List.dropWhile, hd]

/-- A text without blanks at its ends is its own trimmed form. -/
theorem trim_of_ends {s : List Char} (hs : ∀ c ∈ s.head?, isBlank c = false) (he : ∀ c ∈ s.getLast?, isBlank c = false) :
    trim s = s := by
  have h1 : trimStart s = s := by
    cases s with
    | nil => rfl
    | cons c r => simp [trimStart, List.dropWhile, hs c (by simp)]
  have h2 : trimEnd s = s := by
    unfold trimEnd dropTrailing
    cases h : s.reverse with
    | nil => simp_all
    | cons c r =>
      have hc : s.getLast? = some c := by rw [← List.head?_reverse, h]; rfl
      rw [List.dropWhile, he c (by simp [hc]), ← h, List.reverse_reverse]
  rw [trim, h1, h2]

end SkillLint.Text
