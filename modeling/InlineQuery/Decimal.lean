/-
Decimal numbers: a signed integer and the number of its digits that stand
after the point.

A magnitude has 96 bits and at most 28 fractional digits. A fraction with
more digits than fit is rounded at the first digit that does not, halves
away from zero; an integer part that does not fit is no number at all.
Underscores may stand between digits and mostly mean nothing (`readFraction?`
says where one does).

Numbers are kept in lowest terms (`reduce`), so that equality is equality
of values: `1.0` is `1`, and there is only one zero.
-/
import InlineQuery.Text.Basic

namespace InlineQuery

/-- The number `mantissa / 10 ^ scale`. -/
structure Decimal where
  mantissa : Int
  scale : Nat
deriving Repr, DecidableEq

namespace Decimal

/-- Magnitudes stay below this bound. -/
def bound : Nat := 1 <<< 96

/-- The largest number of fractional digits. -/
def maxScale : Nat := 28

/-- Magnitudes below this bound are small: they fit into 64 bits with one
more digit behind them, and a byte to spare. -/
def smallBound : Nat := ((1 <<< 64) - 1) / 10 - 255

-- ============================================================ lowest terms

/-- The magnitude and scale without trailing fractional zeros. -/
def strip (magnitude : Nat) : Nat → Nat × Nat
  | 0 => (magnitude, 0)
  | scale + 1 =>
    if magnitude % 10 = 0 then strip (magnitude / 10) scale else (magnitude, scale + 1)

/-- The number with the given sign, magnitude and scale, in lowest terms. -/
def reduce (negative : Bool) (magnitude scale : Nat) : Decimal :=
  let stripped := strip magnitude scale
  ⟨if negative then -(stripped.1 : Int) else stripped.1, stripped.2⟩

-- ================================================================ reading

/-- What has been read of an unsigned number: the digits so far as a
magnitude, and how many of them are fractional. -/
structure Unsigned where
  magnitude : Nat
  scale : Nat
deriving Repr, DecidableEq

/-- The number rounded by the first digit that did not fit. A carry out of
the last bit costs one fractional digit, and there has to be one. -/
def Unsigned.round? (number : Unsigned) (digit : Nat) : Option Unsigned :=
  if digit < 5 then some number
  else if number.magnitude + 1 < bound then some ⟨number.magnitude + 1, number.scale⟩
  else if number.scale = 0 then none
  else some ⟨(number.magnitude + 5) / 10, number.scale - 1⟩

/-- The number has all the fractional digits there can be, and without the
last of them it is small. -/
def Unsigned.isSmallAndFull (number : Unsigned) : Bool :=
  number.scale == maxScale && number.magnitude / 10 < smallBound

/-- Digits and underscores only: what may stand behind the digits that are
read. -/
def isDigitTail (t : Text) : Bool := t.all fun c => c.isDigit || c == '_'

/-- The digits after the point. Underscores between them do not count, but
for one: where the first digit that does not fit would stand, behind a small
number, an underscore cuts the number off, so that it is not rounded. -/
def readFraction? (number : Unsigned) : Text → Option Unsigned
  | [] => some number
  | c :: t =>
    if c = '_' then
      if number.isSmallAndFull then
        if isDigitTail t then some number else none
      else readFraction? number t
    else match Text.digit? c with
      | none => none
      | some digit =>
        let magnitude := number.magnitude * 10 + digit
        if number.scale < maxScale ∧ magnitude < bound then
          readFraction? ⟨magnitude, number.scale + 1⟩ t
        else if isDigitTail t then number.round? digit
        else none

/-- The digits up to the point and after it. An underscore is only allowed
once there was a digit, and there has to be one. -/
def readUnsigned? (magnitude : Nat) (anyDigit : Bool) : Text → Option Unsigned
  | [] => if anyDigit then some ⟨magnitude, 0⟩ else none
  | c :: t =>
    if c = '.' then
      if anyDigit || (t.head?.map Char.isDigit).getD false then readFraction? ⟨magnitude, 0⟩ t
      else none
    else if c = '_' then
      if anyDigit then readUnsigned? magnitude anyDigit t else none
    else match Text.digit? c with
      | none => none
      | some digit =>
        let next := magnitude * 10 + digit
        if next < bound then readUnsigned? next true t else none

/-- The sign of a number and what stands behind it. -/
def splitSign : Text → Bool × Text
  | '-' :: t => (true, t)
  | '+' :: t => (false, t)
  | t => (false, t)

/-- A number in plain form: at most one sign, digits, at most one point. -/
def readPlain? (t : Text) : Option Decimal :=
  let signed := splitSign t
  (readUnsigned? 0 false signed.2).map fun number =>
    reduce signed.1 number.magnitude number.scale

/-- The number shifted `places` digits to the left of the point. -/
def Unsigned.scaleUp? (number : Unsigned) (places : Nat) : Option Unsigned :=
  if places ≤ number.scale then some ⟨number.magnitude, number.scale - places⟩
  else
    let magnitude := number.magnitude * Nat.pow 10 (places - number.scale)
    if magnitude < bound then some ⟨magnitude, 0⟩ else none

/-- The number shifted `places` digits to the right of the point, rounded
(halves away from zero) so that the last digit kept is the smallest there
is. -/
def Unsigned.scaleDown (number : Unsigned) (places : Nat) : Unsigned :=
  if number.scale + places ≤ maxScale then ⟨number.magnitude, number.scale + places⟩
  else
    let lost := Nat.pow 10 (number.scale + places - maxScale)
    ⟨(number.magnitude + lost / 2) / lost, maxScale⟩

/-- The parts around the first `e` or `E`. -/
def splitExponent? : Text → Option (Text × Text)
  | [] => none
  | c :: t =>
    if c = 'e' ∨ c = 'E' then some ([], t)
    else (splitExponent? t).map fun parts => (c :: parts.1, parts.2)

/-- A number in scientific form: a plain number, `e`, and an exponent from
-28 to 28. -/
def readScientific? (t : Text) : Option Decimal := do
  let (base, exponent) ← splitExponent? t
  let (negative, base) := splitSign base
  let number ← readUnsigned? 0 false base
  match exponent with
  | '-' :: places =>
    let places ← Text.natBelow? (maxScale + 1) places
    let number := number.scaleDown places
    return reduce negative number.magnitude number.scale
  | _ =>
    let places ← Text.natBelow? (maxScale + 1) exponent
    let number ← number.scaleUp? places
    return reduce negative number.magnitude number.scale

/-- A number in plain or, failing that, in scientific form. -/
def read? (t : Text) : Option Decimal :=
  match readPlain? t with
  | some number => some number
  | none => readScientific? t

-- ================================================================ writing

/-- Digits with a point in front of the last `scale` of them, and at least
one in front of the point. -/
def writeUnsigned (magnitude scale : Nat) : Text :=
  if scale = 0 then Text.ofNat magnitude
  else
    let digits := Text.ofNat magnitude
    let padded := List.replicate (scale + 1 - digits.length) '0' ++ digits
    padded.take (padded.length - scale) ++ '.' :: padded.drop (padded.length - scale)

/-- The number in plain form; no exponent, and no sign on zero. -/
def write (number : Decimal) : Text :=
  let digits := writeUnsigned number.mantissa.natAbs number.scale
  if number.mantissa < 0 then '-' :: digits else digits

end Decimal

end InlineQuery
