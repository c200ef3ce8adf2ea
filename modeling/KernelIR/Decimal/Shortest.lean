import KernelIR.Decimal.Binary

/-!
The shortest decimal that reads back to a binary number. The grids of the powers of ten are tried
from the coarsest on. On each grid only the two neighbours of the number can be the nearest point
of its rounding interval; the first grid with a hit has the fewest digits.
-/

set_option autoImplicit false

namespace KernelIR.Decimal

-- Powers are those of the core library, whatever else is in scope.
attribute [local instance (2000)] instPowNat

structure Numeral where
  digits : Nat
  power : Int
deriving DecidableEq, Repr

namespace Magnitude

def ratio (x : Magnitude) (power : Int) : Nat × Nat :=
  (x.centre * 2 ^ x.scale.toNat * 10 ^ (-power).toNat,
    10 ^ power.toNat * 2 ^ (-x.scale).toNat)

/-- The point of the grid `10 ^ power` that reads back; of two the nearer, halfway the upper. -/
def onGrid? (x : Magnitude) (power : Int) : Option Nat :=
  let (numerator, denominator) := x.ratio power
  let below := numerator / denominator
  let above := below + 1
  match x.readsBack below power, x.readsBack above power with
  | true, true =>
      some (if 2 * (numerator - below * denominator) < denominator then below else above)
  | true, false => some below
  | false, true => some above
  | false, false => none

def finest (x : Magnitude) : Int := min x.scale 0

/-- No point of a coarser grid than this one, zero apart, is as small as the number. -/
def coarsest (x : Magnitude) : Int := (x.scale + x.upper.log2 + 1) * 3 / 10 + 2

def exact (x : Magnitude) : Numeral :=
  ⟨x.centre * 2 ^ x.scale.toNat * 5 ^ (-x.scale).toNat, x.finest⟩

/-- The search ends at the latest on the grid of the exact expansion. -/
def search (x : Magnitude) : Nat → Int → Numeral
  | 0, _ => x.exact
  | fuel + 1, power =>
      match x.onGrid? power with
      | some digits => ⟨digits, power⟩
      | none => search x fuel (power - 1)

def shortest (x : Magnitude) : Numeral :=
  x.search (x.coarsest - x.finest).toNat x.coarsest

end Magnitude

end KernelIR.Decimal
