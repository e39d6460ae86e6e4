/-
# Binary floating point words

A `Layout` says how many exponent and fraction bits a binary interchange format
has, and `Binary f` is a word of that format: a sign, and the exponent and
fraction read as one number, the `magnitude`. Magnitudes are ordered as the
values they stand for, so that rounding up past the last finite value lands on
infinity by itself. Everything here is exact arithmetic on natural numbers.

Key definitions:
* `Binary.value?`: significand and power of two of a finite word.
* `Binary.ofRatio`: the word nearest to a quotient, a tie going to even.
* `Binary.convert`: the nearest word of another format.
-/

namespace FrameFlow

/-- How a binary interchange format divides its bits after the sign. -/
structure Layout where
  exponentBits : Nat
  fractionBits : Nat
deriving DecidableEq, Repr

namespace Layout

/-- The 32-bit format. -/
def single : Layout := ⟨8, 23⟩

/-- The 64-bit format. -/
def double : Layout := ⟨11, 52⟩

/-- How many exponents there are. -/
def exponents (f : Layout) : Nat := Nat.pow 2 f.exponentBits

/-- How many fractions there are to one exponent. -/
def fractions (f : Layout) : Nat := Nat.pow 2 f.fractionBits

/-- How many magnitudes there are. -/
def magnitudes (f : Layout) : Nat := f.exponents * f.fractions

/-- The magnitude of infinity: all exponent bits set, no fraction. -/
def infinity (f : Layout) : Nat := (f.exponents - 1) * f.fractions

/-- A significand stands for a whole number of units, which are this negative power of two, at the
smallest exponent, which is the field value one. -/
def unitShift (f : Layout) : Nat := f.exponents / 2 - 2 + f.fractionBits

theorem exponents_pos (f : Layout) : 0 < f.exponents := Nat.two_pow_pos _

theorem fractions_pos (f : Layout) : 0 < f.fractions := Nat.two_pow_pos _

theorem magnitudes_pos (f : Layout) : 0 < f.magnitudes :=
  Nat.mul_pos f.exponents_pos f.fractions_pos

theorem infinity_lt (f : Layout) : f.infinity < f.magnitudes :=
  Nat.mul_lt_mul_of_pos_right (Nat.sub_lt f.exponents_pos Nat.one_pos) f.fractions_pos

end Layout

/-- A word of the format `f`. -/
structure Binary (f : Layout) where
  negative : Bool
  magnitude : Nat
  magnitude_lt : magnitude < f.magnitudes
deriving DecidableEq

/-- A 32-bit floating point number. -/
abbrev Single := Binary .single

/-- A 64-bit floating point number. -/
abbrev Double := Binary .double

namespace Binary

variable {f : Layout}

/-- A magnitude, brought down to infinity where it is beyond it. -/
def clamp (negative : Bool) (magnitude : Nat) : Binary f :=
  ⟨negative, min magnitude f.infinity, Nat.lt_of_le_of_lt (Nat.min_le_right ..) f.infinity_lt⟩

/-- Positive zero. -/
def zero : Binary f := clamp false 0

instance : Inhabited (Binary f) := ⟨zero⟩

/-- The words that are neither infinite nor a NaN. -/
def isFinite (x : Binary f) : Bool := decide (x.magnitude < f.infinity)

/-- The words that stand for no number. -/
def isNaN (x : Binary f) : Bool := decide (f.infinity < x.magnitude)

/-- The exponent field. -/
def exponentField (x : Binary f) : Nat := x.magnitude / f.fractions

/-- The significand in units of the last place, the hidden bit included. -/
def significand (x : Binary f) : Nat :=
  if x.exponentField = 0 then x.magnitude
  else x.magnitude % f.fractions + f.fractions

/-- How far the unit in the last place is above the smallest one, as a power of two. -/
def scale (x : Binary f) : Nat := x.exponentField - 1

/-- The absolute value of a finite word as a numerator over a denominator. -/
def ratio (x : Binary f) : Nat × Nat :=
  if f.unitShift ≤ x.scale then (x.significand * Nat.pow 2 (x.scale - f.unitShift), 1)
  else (x.significand, Nat.pow 2 (f.unitShift - x.scale))

/-! ### Rounding -/

/-- A quotient rounded to the nearest whole number, a half going to the even neighbour. -/
def roundQuotient (num den : Nat) : Nat :=
  let q := num / den
  let r := num % den
  if 2 * r < den then q
  else if den < 2 * r then q + 1
  else if q % 2 = 0 then q else q + 1

/-- The greatest power of two by which the denominator can be raised and still be at most the
numerator raised by a given one, or zero. -/
def logRatio (shift num den : Nat) : Nat :=
  let raised := num * Nat.pow 2 shift
  let n := raised.log2 - den.log2
  if den * Nat.pow 2 n ≤ raised then n else n - 1

/-- The magnitude nearest to a quotient, not yet brought down to infinity. -/
def nearest (f : Layout) (num den : Nat) : Nat :=
  let scale := logRatio f.unitShift num den - f.fractionBits
  let significand :=
    if scale ≤ f.unitShift then roundQuotient (num * Nat.pow 2 (f.unitShift - scale)) den
    else roundQuotient num (den * Nat.pow 2 (scale - f.unitShift))
  scale * f.fractions + significand

/-- The word nearest to a quotient, a tie going to the even significand. -/
def ofRatio (negative : Bool) (num den : Nat) : Binary f :=
  clamp negative (nearest f num den)

/-- The word nearest to an integer. -/
def ofInt (i : Int) : Binary f := ofRatio (decide (i < 0)) i.natAbs 1

/-- The nearest word of another format; a NaN becomes the quiet NaN. -/
def convert {g : Layout} (x : Binary f) : Binary g :=
  if x.isNaN then
    ⟨x.negative, min (g.infinity + g.fractions / 2) (g.magnitudes - 1), by
      have := g.magnitudes_pos
      omega⟩
  else if x.isFinite then ofRatio x.negative x.ratio.1 x.ratio.2
  else clamp x.negative g.infinity

/-- Numeric equality: a NaN equals nothing, and the two zeros are equal. -/
def sameValue (x y : Binary f) : Bool :=
  !x.isNaN && !y.isNaN &&
    (decide (x.magnitude = y.magnitude) && (x.negative == y.negative || decide (x.magnitude = 0)))

/-! ### Interchange -/

/-- The word as one number, the sign bit first. -/
def toBits (x : Binary f) : Nat :=
  (if x.negative then f.magnitudes else 0) + x.magnitude

/-- The word that a number stands for; bits above the sign are dropped. -/
def ofBits (n : Nat) : Binary f :=
  ⟨n / f.magnitudes % 2 == 1, n % f.magnitudes, Nat.mod_lt _ f.magnitudes_pos⟩

end Binary
end FrameFlow
