import SkillLint.Yaml.Scalar

/-!
# Numbers with a fraction

A number with a fraction or an exponent is kept with 53 binary digits, and told with the fewest decimal digits that give
it back. Magnitudes are counted in units of the smallest one above zero, which is two to the power of minus 1074, so that
they are natural numbers.
-/

namespace SkillLint.Yaml

/-- A decimal number: some digits times a power of ten. -/
structure Decimal where
  digits : Nat
  exponent : Int
deriving DecidableEq, Repr

/-- A power of two. -/
def powerOfTwo (n : Nat) : Nat := Nat.pow 2 n

/-- A power of ten. -/
def powerOfTen (n : Nat) : Nat := Nat.pow 10 n

/-- The unit in which magnitudes are counted is one part in this many. -/
def unitsPerOne : Nat := powerOfTwo 1074

/-- The natural number that is nearest to a quotient; of two, the even one. -/
def nearestQuotient (n d : Nat) : Nat :=
  let q := n / d
  let r := n % d
  if 2 * r < d then q else if d < 2 * r then q + 1 else q + q % 2

namespace Decimal

/-- The nearest magnitude with 53 binary digits, unless it is two to the power of 1024 or more. -/
def magnitude? (d : Decimal) : Option Nat :=
  let above := d.digits * powerOfTen d.exponent.toNat * unitsPerOne
  let below := powerOfTen (-d.exponent).toNat
  let unit := powerOfTwo (Nat.log2 (above / below) + 1 - 53)
  let m := nearestQuotient above (below * unit) * unit
  if m < unitsPerOne * powerOfTwo 1024 then some m else none

/-- The number of zeros behind the point before the first digit of a magnitude below one. -/
def leadingZeros : Nat → Nat → Nat
  | 0, _ => 0
  | fuel + 1, m => if 10 * m < unitsPerOne then leadingZeros fuel (10 * m) + 1 else 0

/-- The least power of ten above a magnitude. -/
def scale (m : Nat) : Int :=
  if m < unitsPerOne then -(leadingZeros 330 m : Int) else (toString (m / unitsPerOne)).length

/-- The decimal with so many digits that is nearest to a magnitude, of those that have it as their own. -/
def withDigits? (m count : Nat) : Option Decimal :=
  let exponent := scale m - count
  let above := m * powerOfTen (-exponent).toNat
  let below := unitsPerOne * powerOfTen exponent.toNat
  let low : Decimal := ⟨above / below, exponent⟩
  let high : Decimal := ⟨above / below + 1, exponent⟩
  if low.magnitude? = some m && (2 * (above % below) < below || high.magnitude? != some m) then some low
  else if high.magnitude? = some m then some high
  else none

/-- The decimal with the fewest digits that has a magnitude as its own; seventeen digits are enough. -/
def shortest (m : Nat) : Decimal :=
  if m = 0 then ⟨0, 0⟩
  else ((List.range 17).findSome? fun count => withDigits? m (count + 1)).getD ⟨m * Nat.pow 5 1074, -1074⟩

/-- A decimal written out, with as many digits behind the point as it needs, but at least one. -/
def text (d : Decimal) : String :=
  let places := (-d.exponent).toNat
  let digits := (toString (d.digits * powerOfTen d.exponent.toNat)).toList
  let digits := List.replicate (places + 1 - digits.length) '0' ++ digits
  let (whole, rest) := digits.splitAt (digits.length - places)
  let fraction := (rest.reverse.dropWhile (· == '0')).reverse
  String.ofList (whole ++ '.' :: if fraction.isEmpty then ['0'] else fraction)

end Decimal

/-- The number that some digits stand for. -/
def decimalValue (digits : List Char) : Nat :=
  digits.foldl (fun n d => 10 * n + (d.toNat - 48)) 0

/-- The exponent that the end of a number gives. -/
def exponentOf? : List Char → Option Int
  | [] => some 0
  | e :: rest =>
    let (sign, digits) : Int × List Char :=
      match rest with
      | '-' :: digits => (-1, digits)
      | '+' :: digits => (1, digits)
      | digits => (1, digits)
    if (e == 'e' || e == 'E') && !digits.isEmpty && digits.all Char.isDigit then some (sign * decimalValue digits)
    else none

/-- The magnitude that a text without a sign stands for: digits, with a point among them or not, and an exponent or
not. -/
def magnitudeOf? (s : List Char) : Option Nat := do
  let (whole, rest) := s.span Char.isDigit
  let (fraction, rest) := if rest.head? == some '.' then (rest.drop 1).span Char.isDigit else ([], rest)
  let exponent := (← exponentOf? rest) - fraction.length
  let digits := (whole ++ fraction).dropWhile (· == '0')
  if whole.isEmpty && fraction.isEmpty then none
  else if digits.isEmpty || (digits.length : Int) + exponent < -330 then some 0
  else if 310 < (digits.length : Int) + exponent then none
  else Decimal.magnitude? ⟨decimalValue digits, exponent⟩

/-- A plain scalar that is a number with a fraction or an exponent, or infinite, or no number at all, as it is told. -/
def fractionOf? (s : List Char) : Option String :=
  let (negative, body) :=
    match s with
    | '-' :: body => (true, body)
    | '+' :: body => (false, body)
    | body => (false, body)
  let sign := if negative then "-" else ""
  if [".inf", ".Inf", ".INF"].contains (String.ofList body) then some (sign ++ "inf")
  else if [".nan", ".NaN", ".NAN"].contains (String.ofList s) then some "NaN"
  else (magnitudeOf? body).map fun m => sign ++ (Decimal.shortest m).text

end SkillLint.Yaml
