/-! Numbers: decimal numerals with the exact numbers that they denote, double precision, and
rounding from the one to the other. -/
namespace TemplateTree

/-! ### Decimal numerals

A numeral has an optional sign, ASCII digits with an optional point and at least one digit on one
side of it, and an optional exponent. -/

/-- The number `digits * 10 ^ exponent`, negated if `negative`. Zero keeps its sign. -/
structure Decimal where
  negative : Bool
  digits : Nat
  exponent : Int
deriving DecidableEq

namespace Decimal

/-- An optional sign, and the text behind it. -/
def takeSign : List Char → Bool × List Char
  | '-' :: rest => (true, rest)
  | '+' :: rest => (false, rest)
  | text => (false, text)

def digitsValue (digits : List Char) : Nat :=
  digits.foldl (fun n c => 10 * n + (c.toNat - '0'.toNat)) 0

/-- The digits behind a point, and the text behind them; no point, no digits. -/
def takeFraction : List Char → List Char × List Char
  | '.' :: rest => (rest.takeWhile Char.isDigit, rest.dropWhile Char.isDigit)
  | text => ([], text)

/-- The exponent that a numeral ends in: none written counts as zero, and `e` calls for digits
and nothing else behind its sign. -/
def exponent? : List Char → Option Int
  | [] => some 0
  | c :: rest =>
    let (negative, digits) := takeSign rest
    if (c = 'e' ∨ c = 'E') ∧ digits ≠ [] ∧ digits.all Char.isDigit then
      some (if negative then -(digitsValue digits : Int) else digitsValue digits)
    else none

/-- Reads a numeral; every digit behind the point lowers the exponent by one. -/
def ofText? (text : String) : Option Decimal :=
  let (negative, unsigned) := takeSign text.toList
  let whole := unsigned.takeWhile Char.isDigit
  let (fraction, tail) := takeFraction (unsigned.dropWhile Char.isDigit)
  if whole = [] ∧ fraction = [] then none
  else (exponent? tail).map fun e => ⟨negative, digitsValue (whole ++ fraction), e - fraction.length⟩

def ofInt (n : Int) : Decimal := ⟨n < 0, n.natAbs, 0⟩

end Decimal

/-! ### Double precision

Magnitudes are counted in units of the least positive double, 2^-1074, so that every finite double
is a whole number of units and rounding needs whole numbers only. -/

/-- A double, as the sixty-four bits that stand for it: a sign, eleven bits of exponent and
fifty-two bits of fraction. -/
structure Binary64 where
  bits : UInt64
deriving DecidableEq

/-- The quotient of two numbers, rounded to the nearest whole number; a half goes to the even
neighbour. -/
def divHalfEven (n d : Nat) : Nat :=
  let q := n / d
  let r := n % d
  if 2 * r < d then q
  else if d < 2 * r then q + 1
  else q + q % 2

namespace Binary64

/-- The bits of an infinite magnitude; those of finite magnitudes are smaller. -/
def infinityBits : Nat := 2047 * Nat.pow 2 52

def ofSign (negative : Bool) (magnitude : Nat) : Binary64 :=
  ⟨UInt64.ofNat (if negative then Nat.pow 2 63 + magnitude else magnitude)⟩

def isNegative (x : Binary64) : Bool := Nat.pow 2 63 ≤ x.bits.toNat

def magnitude (x : Binary64) : Nat := x.bits.toNat % Nat.pow 2 63

/-- Neither an infinity nor a mark for no number. -/
def isFinite (x : Binary64) : Bool := x.magnitude < infinityBits

/-- The units that the bits of a finite magnitude stand for. -/
def unitsOf (magnitude : Nat) : Nat :=
  let shift := magnitude / Nat.pow 2 52 - 1
  (magnitude - shift * Nat.pow 2 52) * Nat.pow 2 shift

/-- The magnitude nearest to `n / d`. Beyond the first `2 ^ 53` units only every `2 ^ shift`-th is
a double. The bits of a magnitude are its shift and its multiple, added with the shift in the
exponent's place: a multiple that reaches `2 ^ 53` carries over into it as it has to. -/
def roundRatio (n d : Nat) : Nat :=
  let units := n * Nat.pow 2 1074
  let shift := (units / d).log2 - 52
  min infinityBits (shift * Nat.pow 2 52 + divHalfEven units (d * Nat.pow 2 shift))

/-- The magnitude nearest to `digits * 10 ^ exponent`. As `10 ^ e` is at least `8 ^ e`, numbers
that are too large or too small to matter are told by their size before they are computed. -/
def roundMagnitude (digits : Nat) : Int → Nat
  | .ofNat e =>
    if digits = 0 then 0
    else if 1024 ≤ digits.log2 + 3 * e then infinityBits
    else roundRatio (digits * Nat.pow 10 e) 1
  | .negSucc e =>
    if digits.log2 + 1076 ≤ 3 * (e + 1) then 0
    else roundRatio digits (Nat.pow 10 (e + 1))

/-- The double nearest to a decimal number, or an infinity when that is out of range. -/
def ofDecimal (x : Decimal) : Binary64 :=
  ofSign x.negative (roundMagnitude x.digits x.exponent)

def ofText? (text : String) : Option Binary64 :=
  ((Decimal.ofText? text).map ofDecimal).filter isFinite

end Binary64

end TemplateTree
