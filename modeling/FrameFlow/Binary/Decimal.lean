/-
# Decimal numbers and their text

A `Decimal` is a whole coefficient times a power of ten. Reading takes the word
nearest to it. Writing looks for the fewest digits that read back as the same
word, and a `DecimalStyle` decides where positional text ends and an exponent
begins.

Key definitions:
* `Binary.ofDecimal`: the word nearest to a decimal.
* `Binary.shortest`: the shortest decimal that reads back, the nearest of those.
* `DecimalStyle.text`: the digits laid out.
-/
import FrameFlow.Binary.Basic

namespace FrameFlow

/-- The digits of a natural number in base ten. -/
def decimalDigits (n : Nat) : List Char := Nat.toDigits 10 n

/-- An integer in base ten. -/
def integerText (i : Int) : List Char :=
  if i < 0 then '-' :: decimalDigits i.natAbs else decimalDigits i.natAbs

/-- The number `coefficient * 10 ^ exponent`. -/
structure Decimal where
  coefficient : Nat
  exponent : Int
deriving DecidableEq, Repr

namespace Decimal

/-- Takes trailing zeros off the coefficient, at most as many as it is told. -/
def stripZeros : Nat → Decimal → Decimal
  | 0, d => d
  | fuel + 1, d =>
    if d.coefficient ≠ 0 ∧ d.coefficient % 10 = 0 then
      stripZeros fuel ⟨d.coefficient / 10, d.exponent + 1⟩
    else d

/-- The exponent of the first digit. -/
def leading (d : Decimal) : Int := d.exponent + (decimalDigits d.coefficient).length - 1

end Decimal

namespace Binary

variable {f : Layout}

/-- The word nearest to a decimal. Exponents out of all proportion are settled
without raising ten to them. -/
def ofDecimal (negative : Bool) (d : Decimal) : Binary f :=
  if d.coefficient = 0 then clamp negative 0
  else if f.exponents < d.exponent then clamp negative f.infinity
  else if d.exponent + d.coefficient.log2 + 1 < -((f.exponents + f.fractionBits : Nat) : Int) then
    clamp negative 0
  else if d.exponent < 0 then ofRatio negative d.coefficient (Nat.pow 10 d.exponent.natAbs)
  else ofRatio negative (d.coefficient * Nat.pow 10 d.exponent.natAbs) 1

/-! ### The shortest decimal -/

/-- How often a power of ten goes into a quotient. -/
def floorGrid (num den : Nat) (exponent : Int) : Nat :=
  if exponent < 0 then num * Nat.pow 10 exponent.natAbs / den
  else num / (den * Nat.pow 10 exponent.natAbs)

/-- Twice a point of the grid against twice the quotient, as two numbers to compare. -/
def againstMiddle (num den coefficient : Nat) (exponent : Int) : Nat × Nat :=
  if exponent < 0 then (2 * num * Nat.pow 10 exponent.natAbs, (2 * coefficient + 1) * den)
  else (2 * num, (2 * coefficient + 1) * den * Nat.pow 10 exponent.natAbs)

/-- Of the two points of the grid around a word the one that reads back, the
nearer of two; of two equally near ones the even one. -/
def onGrid? (x : Binary f) (exponent : Int) : Option Decimal :=
  let (num, den) := x.ratio
  let below := floorGrid num den exponent
  let low : Decimal := ⟨below, exponent⟩
  let high : Decimal := ⟨below + 1, exponent⟩
  let (here, middle) := againstMiddle num den below exponent
  let lowHits := decide (below ≠ 0 ∧ ofDecimal x.negative low = x)
  let highHits := decide (ofDecimal x.negative high = x)
  if lowHits && highHits then
    if here < middle || (here == middle && below % 2 == 0) then some low else some high
  else if lowHits then some low
  else if highHits then some high
  else none

/-- Tries ever finer grids. -/
def searchGrids (x : Binary f) : Nat → Int → Option Decimal
  | 0, _ => none
  | tries + 1, exponent =>
    match onGrid? x exponent with
    | some d => some d
    | none => searchGrids x tries (exponent - 1)

/-- The exponent of the first decimal digit of a quotient, by counting digits. -/
def leadingExponent (num den : Nat) : Int :=
  let whole := num / den
  if whole ≠ 0 then (decimalDigits whole).length - 1
  else
    let inverse := den / num
    let guess : Int := -((decimalDigits inverse).length : Int)
    if floorGrid num den (guess + 1) = 0 then guess else guess + 1

/-- The value itself as a decimal. -/
def exactDecimal (x : Binary f) : Decimal :=
  if f.unitShift ≤ x.scale then ⟨x.significand * Nat.pow 2 (x.scale - f.unitShift), 0⟩
  else ⟨x.significand * Nat.pow 5 (f.unitShift - x.scale), -((f.unitShift - x.scale : Nat) : Int)⟩

/-- The decimal with the fewest digits that reads back as a finite word. -/
def shortest (x : Binary f) : Decimal :=
  if x.magnitude = 0 then ⟨0, 0⟩
  else
    let found := (searchGrids x 17 (leadingExponent x.ratio.1 x.ratio.2)).getD x.exactDecimal
    found.stripZeros (decimalDigits found.coefficient).length

end Binary

/-! ### Text -/

/-- The exponents of the first digit between which a number is written out in places. -/
structure DecimalStyle where
  lowest : Int
  highest : Int
deriving DecidableEq, Repr

namespace DecimalStyle

/-- Digits with a point after the first `places` of them, and at least one digit after it. -/
def pointed (places : Nat) (digits : List Char) : List Char :=
  if digits.length ≤ places then
    digits ++ List.replicate (places - digits.length) '0' ++ ['.', '0']
  else digits.take places ++ '.' :: digits.drop places

/-- A positive decimal in places or with an exponent, as the style says. -/
def text (style : DecimalStyle) (d : Decimal) : List Char :=
  let digits := decimalDigits d.coefficient
  let e := d.leading
  if d.coefficient = 0 then ['0', '.', '0']
  else if style.lowest ≤ e ∧ e ≤ style.highest then
    if e < 0 then '0' :: '.' :: (List.replicate (e.natAbs - 1) '0' ++ digits)
    else pointed (e.natAbs + 1) digits
  else
    let mantissa := match digits with
      | [d] => [d]
      | d :: rest => d :: '.' :: rest
      | [] => []
    mantissa ++ 'e' :: (if e < 0 then '-' else '+') :: decimalDigits e.natAbs

end DecimalStyle

/-- 32-bit numbers are written in places from a millionth to the trillions. -/
def singleStyle : DecimalStyle := ⟨-6, 12⟩

/-- 64-bit numbers are written in places from a hundred thousandth to sixteen digits. -/
def doubleStyle : DecimalStyle := ⟨-5, 15⟩

/-- A finite word as text. -/
def Binary.finiteText {f : Layout} (style : DecimalStyle) (x : Binary f) : List Char :=
  (if x.negative then ['-'] else []) ++ style.text x.shortest

end FrameFlow
