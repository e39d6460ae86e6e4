/-
# Reading decimals

A written number becomes a 64-bit number in steps, each of which rounds: its
digits are taken as a whole number as long as that stays below 2 ^ 64, the rest
only count, and the number is then multiplied or divided by a power of ten. The
result is the nearest 64-bit number where digits and power are exact, and is
next to it elsewhere.

Key definitions:
* `appendDigits`: the digits that count in full.
* `Double.scaled?`: a whole number times a power of ten.
* `Double.ofDigits?`: a written number.
-/
import FrameFlow.Binary.Basic

namespace FrameFlow

/-- The value of a decimal digit. -/
def digitValue (c : Char) : Nat := c.toNat - '0'.toNat

/-- Puts digits behind a number as long as it stays below 2 ^ 64, and what digits are left. -/
def appendDigits : Nat → List Char → Nat × List Char
  | n, [] => (n, [])
  | n, c :: r =>
    if n * 10 + digitValue c < 0x10000000000000000 then appendDigits (n * 10 + digitValue c) r
    else (n, c :: r)

namespace Binary

variable {f : Layout}

/-- The product of two finite words. -/
def mul (x y : Binary f) : Binary f :=
  ofRatio (x.negative != y.negative) (x.ratio.1 * y.ratio.1) (x.ratio.2 * y.ratio.2)

/-- The quotient of two finite words, the second of which is not zero. -/
def div (x y : Binary f) : Binary f :=
  ofRatio (x.negative != y.negative) (x.ratio.1 * y.ratio.2) (x.ratio.2 * y.ratio.1)

end Binary

namespace Double

/-- A power of ten. -/
def tenTo (n : Nat) : Double := .ofRatio false (Nat.pow 10 n) 1

/-- The greatest power of ten that a 64-bit number holds. -/
def greatestPower : Nat := 308

/-- A number divided by a power of ten, in two steps where the power is too great for one. -/
def shiftedDown (x : Double) (places : Nat) : Double :=
  if places ≤ greatestPower then x.div (tenTo places)
  else if places ≤ 2 * greatestPower then
    (x.div (tenTo greatestPower)).div (tenTo (places - greatestPower))
  else .clamp x.negative 0

/-- A whole number times a power of ten, if that is not too great. -/
def scaled? (negative : Bool) (significand : Nat) (exponent : Int) : Option Double :=
  let x : Double := .ofRatio negative significand 1
  if significand = 0 then some x
  else if exponent < 0 then some (shiftedDown x exponent.natAbs)
  else if exponent ≤ greatestPower then
    some (x.mul (tenTo exponent.natAbs)) |>.filter Binary.isFinite
  else none

/-- The number with these digits before and behind the point and this exponent, if it is not too
great. -/
def ofDigits? (negative : Bool) (whole fraction : List Char) (exponent : Int) : Option Double :=
  let (n, dropped) := appendDigits 0 whole
  let (n, unused) := appendDigits n fraction
  scaled? negative n (exponent + dropped.length - (fraction.length - unused.length : Nat))

end Double
end FrameFlow
