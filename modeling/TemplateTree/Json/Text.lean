import TemplateTree.Json.Basic

/-! The outer layer: the texts that values are exchanged as. It stands beside the library, whose
theory is about values and takes it that a text hands them on as they are. No other module uses this
one.

A text does not always do so. A double is written with the fewest digits that identify it, but it is
read with the precision of doubles at each step, so that what is read back may be a neighbour of what
was written; and a text that is nested too deep is not read. -/
namespace TemplateTree

namespace Binary64

/-! ### Scaling in double precision

Each step rounds, the whole number and the power of ten as well, so the result may be a neighbour of
the double that is nearest to the exact number. -/

def product (a b : Nat) : Nat := roundRatio (unitsOf a * unitsOf b) (Nat.pow 2 2148)

def quotient (a b : Nat) : Nat := roundRatio (unitsOf a) (unitsOf b)

/-- The magnitude nearest to `10 ^ e`, which is finite up to `e = 308`. -/
def powerOfTen (e : Nat) : Nat := roundMagnitude 1 e

/-- Scales a magnitude up, unless the result is out of range. -/
def scaleUp? (magnitude e : Nat) : Option Nat :=
  if e ≤ 308 then (some (product magnitude (powerOfTen e))).filter (· < infinityBits)
  else if magnitude = 0 then some 0
  else none

/-- Scales a magnitude down, by `10 ^ 308` at a time as long as it has to. -/
def scaleDown (magnitude e : Nat) : Nat :=
  if e ≤ 308 then quotient magnitude (powerOfTen e)
  else if magnitude = 0 then 0
  else scaleDown (quotient magnitude (powerOfTen 308)) (e - 308)
termination_by e

/-- The magnitude of `significand * 10 ^ exponent`, computed in double precision. -/
def scale? (significand : Nat) : Int → Option Nat
  | .ofNat e => scaleUp? (roundMagnitude significand 0) e
  | .negSucc e => some (scaleDown (roundMagnitude significand 0) (e + 1))

/-! ### Fewest digits

The decimal number that stands for a double: of all that round to it one with the fewest digits, and
of those the nearest. Multiples of powers of ten are tried from the coarsest power to the finest, so
that the first that rounds to the double has the fewest digits and does not end in a zero. -/

/-- The multiple of `10 ^ exponent` that rounds to a magnitude: the nearest one when it does, or
else one beside it, which a power of two may need as its gap below is narrow. -/
def onGrid? (magnitude : Nat) (exponent : Int) : Option Nat :=
  let (n, d) := match exponent with
    | .ofNat e => (unitsOf magnitude, Nat.pow 2 1074 * Nat.pow 10 e)
    | .negSucc e => (unitsOf magnitude * Nat.pow 10 (e + 1), Nat.pow 2 1074)
  [divHalfEven n d, n / d, n / d + 1].find? (roundMagnitude · exponent = magnitude)

/-- The exponent of a power of ten that is not below a magnitude, and at most a few digits above
it: `0.30103` is the logarithm of two. -/
def gridTop (magnitude : Nat) : Int :=
  (((unitsOf magnitude).log2 : Int) - 1073) * 30103 / 100000 + 1

/-- The decimal number with the fewest digits that rounds to a double. Seventeen digits are always
enough; the exact number would be the last resort. -/
def shortest (x : Binary64) : Decimal :=
  let m := x.magnitude
  if m = 0 then ⟨x.isNegative, 0, 0⟩
  else
    let grids := (List.range 20).map fun k : Nat => gridTop m - k
    let found := grids.findSome? fun g => (onGrid? m g).map fun digits => ⟨x.isNegative, digits, g⟩
    found.getD ⟨x.isNegative, unitsOf m * Nat.pow 5 1074, -1074⟩

end Binary64

namespace Json

/-! ### Writing numbers -/

/-- A decimal number is written with digits on both sides of a point from `10 ^ -5` up to
`10 ^ 16`, and otherwise with one digit before the point and an exponent. -/
def decimalText (x : Decimal) : String :=
  let digits := (toString x.digits).toList
  let before : Int := digits.length + x.exponent
  let zeros (n : Int) := List.replicate n.toNat '0'
  let unsigned :=
    if 0 ≤ x.exponent ∧ before ≤ 16 then digits ++ zeros x.exponent ++ ['.', '0']
    else if 0 < before ∧ before ≤ 16 then
      digits.take before.toNat ++ '.' :: digits.drop before.toNat
    else if -5 < before ∧ before ≤ 0 then '0' :: '.' :: zeros (-before) ++ digits
    else
      let behind := if digits.length = 1 then [] else '.' :: digits.drop 1
      digits.take 1 ++ behind ++ 'e' :: (toString (before - 1)).toList
  (if x.negative then "-" else "") ++ String.ofList unsigned

def doubleText (x : Binary64) : String := decimalText x.shortest

/-! ### Reading numbers -/

/-- Appends digits to a significand as long as it has at most sixty-four bits. The number of
digits that are left over is told too. -/
def fill : Nat → List Char → Nat × Nat
  | s, [] => (s, 0)
  | s, c :: rest =>
    let next := 10 * s + (c.toNat - '0'.toNat)
    if next < UInt64.size then fill next rest else (s, rest.length + 1)

/-- The integer that a sign and a significand stand for, if it has sixty-four bits. Zero with a
sign is no integer. -/
def integer? (negative : Bool) (significand : Nat) : Option Int :=
  if !negative then some significand
  else if 0 < significand ∧ significand ≤ UInt64.size / 2 then some (-significand)
  else none

/-- Reads a number: an optional minus, digits without a needless zero in front, and an optional
fraction and exponent, neither of which may be without digits. Digits that no longer fit the
significand count as zeros before the point, and not at all behind it. Numbers out of range are
not read. -/
def ofNumeral? (text : List Char) : Option Json :=
  let (negative, unsigned) := match text with
    | '-' :: rest => (true, rest)
    | _ => (false, text)
  let whole := unsigned.takeWhile Char.isDigit
  let behind := unsigned.dropWhile Char.isDigit
  let (fraction, tail) := Decimal.takeFraction behind
  if whole = [] ∨ (whole.head? = some '0' ∧ whole.length ≠ 1) ∨
      (behind.head? = some '.' ∧ fraction = []) then none
  else
    let (head, zeros) := fill 0 whole
    let asInteger := if behind = [] ∧ zeros = 0 then integer? negative head else none
    match asInteger with
    | some n => some (.int n)
    | none => do
      let exponent ← Decimal.exponent? tail
      let (significand, unread) := fill head fraction
      let places : Int := fraction.length - unread
      let magnitude ← Binary64.scale? significand (zeros - places + exponent)
      return .double (.ofSign negative magnitude)

/-! ### Writing texts -/

/-- A character as it is written between quotes. Quotes and backslashes have a backslash before
them, and control characters are written by their numbers. -/
def escape (c : Char) : List Char :=
  if c = '"' ∨ c = '\\' then ['\\', c]
  else if c.toNat < 32 then
    ['\\', 'u', '0', '0', Nat.digitChar (c.toNat / 16), Nat.digitChar (c.toNat % 16)]
  else [c]

def quote (s : String) : String := String.ofList ('"' :: s.toList.flatMap escape ++ ['"'])

mutual
/-- A value as a text, without blanks. -/
def toText : Json → String
  | null => "null"
  | bool b => if b then "true" else "false"
  | int n => toString n
  | double x => doubleText x
  | string s => quote s
  | array items => "[" ++ ",".intercalate (itemTexts items) ++ "]"
  | object members => "\x7b" ++ ",".intercalate (memberTexts members) ++ "\x7d"

def itemTexts : List Json → List String
  | [] => []
  | j :: rest => j.toText :: itemTexts rest

def memberTexts : List (String × Json) → List String
  | [] => []
  | (key, j) :: rest => (quote key ++ ":" ++ j.toText) :: memberTexts rest
end

/-! ### Reading texts

A reader takes a text and gives what it has read from the start and the text behind that. A text is
read by how deep arrays and objects may still be nested in it. -/

def hexDigit? (c : Char) : Option Nat :=
  if c.isDigit then some (c.toNat - '0'.toNat)
  else if 'a' ≤ c ∧ c ≤ 'f' then some (c.toNat - 'a'.toNat + 10)
  else if 'A' ≤ c ∧ c ≤ 'F' then some (c.toNat - 'A'.toNat + 10)
  else none

/-- The sixteen bits that four hexadecimal digits stand for. -/
def unit? (a b c d : Char) : Option Nat := do
  return (((← hexDigit? a) * 16 + (← hexDigit? b)) * 16 + (← hexDigit? c)) * 16 + (← hexDigit? d)

/-- The character that a unit stands for on its own. -/
def charOfUnit? (unit : Nat) : Option Char :=
  if unit.isValidChar then some (Char.ofNat unit) else none

def isHigh (unit : Nat) : Bool := 0xd800 ≤ unit && unit < 0xdc00

/-- The character that the two units of a pair stand for: ten bits from each, beyond the first
`2 ^ 16`. -/
def charOfPair? (high low : Nat) : Option Char :=
  if isHigh high ∧ 0xdc00 ≤ low ∧ low < 0xe000 then
    some (Char.ofNat (0x10000 + (high - 0xd800) * 0x400 + (low - 0xdc00)))
  else none

/-- The character that stands behind a backslash for another, or for itself. -/
def unescape? (c : Char) : Option Char :=
  match c with
  | '"' | '\\' | '/' => some c
  | 'b' => some '\x08'
  | 'f' => some '\x0c'
  | 'n' => some '\n'
  | 'r' => some '\r'
  | 't' => some '\t'
  | _ => none

/-- Puts a character before a text that has been read. -/
def push (c : Option Char) (read : Option (List Char × List Char)) :
    Option (List Char × List Char) := do
  let c ← c
  let (text, rest) ← read
  return (c :: text, rest)

/-- Reads the rest of a text in quotes, behind the first of them. The first unit of a pair is
kept until the second, which has to stand right behind it. -/
def readQuoted : Option Nat → List Char → Option (List Char × List Char)
  | none, '"' :: rest => some ([], rest)
  | pending, '\\' :: 'u' :: a :: b :: c :: d :: rest =>
    match pending, unit? a b c d with
    | _, none => none
    | some high, some unit => push (charOfPair? high unit) (readQuoted none rest)
    | none, some unit =>
      if isHigh unit then readQuoted (some unit) rest
      else push (charOfUnit? unit) (readQuoted none rest)
  | none, '\\' :: c :: rest => push (unescape? c) (readQuoted none rest)
  | none, c :: rest => push (if c.toNat < 32 then none else some c) (readQuoted none rest)
  | _, _ => none

def readString : List Char → Option (String × List Char)
  | '"' :: rest => (readQuoted none rest).map fun (text, rest) => (String.ofList text, rest)
  | _ => none

def isBlank (c : Char) : Bool := c == ' ' || c == '\n' || c == '\r' || c == '\t'

def skipBlanks (text : List Char) : List Char := text.dropWhile isBlank

def isNumeric (c : Char) : Bool :=
  c.isDigit || c == '-' || c == '+' || c == '.' || c == 'e' || c == 'E'

def readScalar : List Char → Option (Json × List Char)
  | 'n' :: 'u' :: 'l' :: 'l' :: rest => some (null, rest)
  | 't' :: 'r' :: 'u' :: 'e' :: rest => some (bool true, rest)
  | 'f' :: 'a' :: 'l' :: 's' :: 'e' :: rest => some (bool false, rest)
  | '"' :: rest => (readQuoted none rest).map fun (text, rest) => (string (String.ofList text), rest)
  | text => (ofNumeral? (text.takeWhile isNumeric)).map fun n => (n, text.dropWhile isNumeric)

/-- Reads parts with commas between them up to a closing character, of which there are at most
as many as the bound says. -/
def readParts {α : Type} (read : List Char → Option (α × List Char)) (close : Char) :
    Nat → List Char → Option (List α × List Char)
  | 0, _ => none
  | bound + 1, text => do
    let (part, rest) ← read text
    match skipBlanks rest with
    | [] => none
    | c :: rest =>
      if c = close then some ([part], rest)
      else if c = ',' then do
        let (parts, rest) ← readParts read close bound rest
        return (part :: parts, rest)
      else none

/-- Reads parts as `readParts` does, or none at all. -/
def readAll {α : Type} (read : List Char → Option (α × List Char)) (close : Char) (bound : Nat)
    (text : List Char) : Option (List α × List Char) :=
  match skipBlanks text with
  | [] => none
  | c :: rest => if c = close then some ([], rest) else readParts read close bound text

def readMember (read : List Char → Option (Json × List Char)) (text : List Char) :
    Option ((String × Json) × List Char) := do
  let (key, rest) ← readString (skipBlanks text)
  match skipBlanks rest with
  | ':' :: rest =>
    let (j, rest) ← read rest
    return ((key, j), rest)
  | _ => none

/-- Reads a value in a text whose length is at most `bound`, with arrays and objects nested at
most as deep as the second argument says. -/
def readValue (bound : Nat) : Nat → List Char → Option (Json × List Char)
  | 0, text => readScalar (skipBlanks text)
  | depth + 1, text =>
    match skipBlanks text with
    | '[' :: rest =>
      (readAll (readValue bound depth) ']' bound rest).map fun (items, rest) => (array items, rest)
    | '\x7b' :: rest =>
      (readAll (readMember (readValue bound depth)) '\x7d' bound rest).map fun (members, rest) =>
        (object members, rest)
    | text => readScalar text

/-- How deep arrays and objects may be nested in a text. -/
def maxDepth : Nat := 127

def ofText? (s : String) : Option Json :=
  let text := s.toList
  match readValue text.length maxDepth text with
  | some (j, rest) => if skipBlanks rest = [] then some j else none
  | none => none

/-- Writes a value as a text and reads that. It is not read if it is nested too deep, or if a
number in it is rounded out of range, and other numbers may come back rounded. -/
def reread (j : Json) : Option Json := ofText? j.toText

end Json

end TemplateTree
