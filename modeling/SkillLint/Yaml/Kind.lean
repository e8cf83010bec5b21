import SkillLint.Yaml.Fraction
import SkillLint.Yaml.Tag

/-!
# Kinds of scalars

What a scalar stands for. A plain one is nothing, a truth value or a number if it is written as one, unless a tag says
what it must be; any other is a string.
-/

namespace SkillLint.Yaml

/-- The truth value that a text stands for. -/
def booleanOf? (s : List Char) : Option Bool :=
  let text := String.ofList s
  if ["true", "True", "TRUE"].contains text then some true
  else if ["false", "False", "FALSE"].contains text then some false
  else none

/-- Whether a text stands for nothing. -/
def isNull (s : List Char) : Bool :=
  ["null", "Null", "NULL", "~"].contains (String.ofList s)

/-- The value of some digits in a base up to sixteen. -/
def digitsValue? (base : Nat) (digits : List Char) : Option Nat :=
  if digits.isEmpty then none
  else digits.foldlM (fun n d => (hexValue? d).bind fun v => if v < base then some (base * n + v) else none) 0

/-- The whole number that a text without a sign stands for: decimal with no leading zero, or in base 16, 8 or 2 with a
marker in front. -/
def unsignedOf? : List Char → Option Nat
  | '0' :: 'x' :: digits => digitsValue? 16 digits
  | '0' :: 'o' :: digits => digitsValue? 8 digits
  | '0' :: 'b' :: digits => digitsValue? 2 digits
  | ['0'] => some 0
  | '0' :: _ => none
  | digits => digitsValue? 10 digits

/-- The whole number that a text with a plus sign or without one stands for. -/
def naturalOf? (s : List Char) : Option Nat :=
  unsignedOf? (if s.head? = some '+' then s.drop 1 else s)

/-- The whole number that a text stands for, if 128 bits hold it. -/
def wholeOf? (s : List Char) : Option Int :=
  if s.head? = some '-' then
    (unsignedOf? (s.drop 1)).bind fun n => if n ≤ powerOfTwo 127 then some (-(n : Int)) else none
  else (naturalOf? s).bind fun n => if n < powerOfTwo 128 then some (n : Int) else none

/-- Whether a text is digits with a leading zero, which is no number. -/
def isPadded (s : List Char) : Bool :=
  let digits := if s.head? = some '-' ∨ s.head? = some '+' then s.drop 1 else s
  2 ≤ digits.length && digits.head? == some '0' && digits.all Char.isDigit

/-- What a plain scalar without a tag stands for. -/
def Kind.ofPlain (s : List Char) : Kind :=
  if s.isEmpty || isNull s then .nothing
  else
    match booleanOf? s with
    | some value => .boolean value
    | none =>
      match wholeOf? s with
      | some value => .whole value
      | none =>
        match if isPadded s then none else fractionOf? s with
        | some digits => .fraction digits
        | none => .string (String.ofList s)

/-- The tag that says that a scalar is a truth value. -/
def booleanTag : TagName := TagName.ofText "tag:yaml.org,2002:bool".toList

/-- The tag that says that a scalar is a whole number. -/
def wholeTag : TagName := TagName.ofText "tag:yaml.org,2002:int".toList

/-- The tag that says that a scalar is a number. -/
def fractionTag : TagName := TagName.ofText "tag:yaml.org,2002:float".toList

/-- The tag that says that a scalar is nothing. -/
def nullTag : TagName := TagName.ofText "tag:yaml.org,2002:null".toList

/-- Whether a tag leaves it to the text of a plain scalar what it stands for. -/
def isLocalTag (tag : TagName) : Bool :=
  (TagName.ofText ['!']).isPrefixOf tag

/-- The kind of a scalar with a tag that says what it must be, and the word for that. -/
def Kind.ofTagged? (tag : TagName) (s : List Char) : Option (Option Kind × String) :=
  if tag = booleanTag then some ((booleanOf? s).map .boolean, "a boolean")
  else if tag = wholeTag then some ((wholeOf? s).map .whole, "an integer")
  else if tag = fractionTag then some ((fractionOf? s).map .fraction, "a float")
  else if tag = nullTag then some (if isNull s then some .nothing else none, "null")
  else none

/-- Why a scalar is not what is expected. -/
def Mismatch.ofScalar (tag : Option TagName) (style : ScalarStyle) (s : List Char) (expected : String) : Mismatch :=
  match tag.bind fun tag => Kind.ofTagged? tag s with
  | some (some found, _) => .kind found expected
  | some (none, word) => .value (String.ofList s) word
  | none =>
    if style = .plain && tag.all isLocalTag then .kind (Kind.ofPlain s) expected
    else .kind (.string (String.ofList s)) expected

end SkillLint.Yaml
