/-!
Binary interchange formats: the number that a word of sign, exponent and fraction bits stands for,
and the numbers that would be rounded to it.
-/

set_option autoImplicit false

namespace KernelIR.Decimal

-- Powers are those of the core library, whatever else is in scope.
attribute [local instance (2000)] instPowNat

structure BinaryFormat where
  exponentBits : Nat
  fractionBits : Nat
deriving DecidableEq, Repr

def binary32 : BinaryFormat := ⟨8, 23⟩

def binary64 : BinaryFormat := ⟨11, 52⟩

structure Magnitude where
  mantissa : Nat
  exponent : Int
  /-- The neighbour below is half as far away as the neighbour above. -/
  narrowBelow : Bool
deriving DecidableEq, Repr

inductive Reading where
  | notANumber
  | infinite (negative : Bool)
  | zero (negative : Bool)
  | finite (negative : Bool) (magnitude : Magnitude)
deriving DecidableEq, Repr

namespace BinaryFormat

def bias (format : BinaryFormat) : Int := 2 ^ (format.exponentBits - 1) - 1

/-- An exponent field of ones marks infinities and what is no number; an exponent field of zero
drops the leading one of the fraction and keeps the least exponent. -/
def read (format : BinaryFormat) (word : Nat) : Reading :=
  let fraction := word % 2 ^ format.fractionBits
  let field := word / 2 ^ format.fractionBits % 2 ^ format.exponentBits
  let negative := word / 2 ^ (format.fractionBits + format.exponentBits) % 2 == 1
  if field = 2 ^ format.exponentBits - 1 then
    if fraction = 0 then .infinite negative else .notANumber
  else if field = 0 then
    if fraction = 0 then .zero negative
    else .finite negative ⟨fraction, 1 - format.bias - format.fractionBits, false⟩
  else
    .finite negative
      ⟨2 ^ format.fractionBits + fraction, field - format.bias - format.fractionBits,
        fraction == 0 && field > 1⟩

end BinaryFormat

namespace Magnitude

/-- The ends of the rounding interval are quarters of the last place, so they are kept as multiples
of `2 ^ scale`. -/
def scale (x : Magnitude) : Int := x.exponent - 2

def centre (x : Magnitude) : Nat := 4 * x.mantissa

def lower (x : Magnitude) : Nat := if x.narrowBelow then x.centre - 1 else x.centre - 2

def upper (x : Magnitude) : Nat := x.centre + 2

/-- A tie goes to the even mantissa, so an even one owns the ends of its interval. -/
def ownsEnds (x : Magnitude) : Bool := x.mantissa % 2 == 0

def compareDecimal (x : Magnitude) (digits : Nat) (power : Int) (count : Nat) : Ordering :=
  compare (digits * 10 ^ power.toNat * 2 ^ (-x.scale).toNat)
    (count * 2 ^ x.scale.toNat * 10 ^ (-power).toNat)

def readsBack (x : Magnitude) (digits : Nat) (power : Int) : Bool :=
  let low := x.compareDecimal digits power x.lower
  let high := x.compareDecimal digits power x.upper
  (low == .gt || (x.ownsEnds && low == .eq)) && (high == .lt || (x.ownsEnds && high == .eq))

end Magnitude

end KernelIR.Decimal
